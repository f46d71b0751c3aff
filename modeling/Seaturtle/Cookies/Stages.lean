import Seaturtle.Cookies.OneStore

/-! The stages of the deletions. A call posts its stage on the transient store, whose
callback posts the stage on the persistent store; anything may run in between. -/
namespace Seaturtle

inductive Deletion where
  | createdBetween (deleteBegin deleteEnd : Time)
  | createdBetweenForHost (deleteBegin deleteEnd : Time) (url : Gurl)
  | sessionCookies
  deriving DecidableEq

/-- A stage that waits for its store, with what is bound into its callback. -/
inductive Task (Bound : Type) where
  | deleteCookie (url : Gurl) (cookieName : Str)
  | delete (call : Nat) (d : Deletion) (bound : Bound)
  deriving DecidableEq

inductive Backing where
  | transient
  | persistant
  deriving DecidableEq

/-- What is seen of a call: a stage that has run, or the caller's `finished`. -/
inductive Report where
  | swept (store : Backing) (removed : Nat)
  | finished (deleted : Nat)
  deriving DecidableEq

/-- A call, with the instances that were in either store when it was made. -/
structure DeletionCall (Instance : Type) where
  deletion : Deletion
  instances : List Instance

structure Staged (Cookie Instance : Type) where
  store : SplitCookieStore Cookie
  /-- The instances that have been in a store so far. -/
  issued : List Instance
  onTransient : List (Task Unit) := []
  /-- Here the count of the first stage is bound into the second. -/
  onPersistant : List (Task Nat) := []
  calls : List (DeletionCall Instance) := []
  log : List (Nat × Report) := []

namespace DeletionRuns

inductive Event where
  | call (c : CookieRuns.StoreCall)
  | updateFavorites (update : UpdateFavoritesResponse)
  | deleteCookie (url : Gurl) (cookieName : Str)
  | delete (d : Deletion)
  | runTransient (now : Time) (task : Task Unit)
  | runPersistant (now : Time) (task : Task Nat)

variable {Cookie Instance : Type} (lib : UrlLibrary) (cs : CookieStore Cookie)

def deleteOn (now : Time) : Deletion → List Cookie → Nat × List Cookie
  | .createdBetween b e => cs.deleteAllCreatedBetween now b e
  | .createdBetweenForHost b e url => cs.deleteAllCreatedBetweenForHost now b e url
  | .sessionCookies => cs.deleteSessionCookies now

def persistantDelete (s : SplitCookieStore Cookie) (now : Time) (alreadyDeleted : Nat) :
    Deletion → Nat × SplitCookieStore Cookie
  | .createdBetween b e => s.persistantDeleteAllCreatedBetween cs now b e alreadyDeleted
  | .createdBetweenForHost b e url =>
    s.persistantDeleteAllCreatedBetweenForHost cs now b e url alreadyDeleted
  | .sessionCookies => s.persistantDeleteSessionCookies cs now alreadyDeleted

variable (identity : Cookie → Instance)

def instancesIn (store : SplitCookieStore Cookie) : Backing → List Instance
  | .transient => store.transient.map identity
  | .persistant => store.persistant.map identity

def instances (store : SplitCookieStore Cookie) : List Instance :=
  instancesIn identity store .transient ++ instancesIn identity store .persistant

def observe (s : Staged Cookie Instance) (store : SplitCookieStore Cookie) :
    Staged Cookie Instance :=
  { s with store, issued := s.issued ++ instances identity store }

def transientStage (s : Staged Cookie Instance) (now : Time) :
    Task Unit → Staged Cookie Instance
  | .deleteCookie url cookieName =>
    let (_, store) := s.store.onTransient (cs.deleteCookie now url cookieName)
    { observe identity s store with
      onPersistant := s.onPersistant ++ [.deleteCookie url cookieName] }
  | .delete call d _ =>
    let (deleted, store) := s.store.onTransient (deleteOn cs now d)
    { observe identity s store with
      onPersistant := s.onPersistant ++ [.delete call d deleted]
      log := s.log ++
        [(call, .swept .transient (s.store.transient.length - store.transient.length))] }

def persistantStage (s : Staged Cookie Instance) (now : Time) :
    Task Nat → Staged Cookie Instance
  | .deleteCookie url cookieName =>
    let (_, store) := s.store.persistantDeleteCookie cs now url cookieName
    observe identity s store
  | .delete call d alreadyDeleted =>
    let (deleted, store) := persistantDelete cs s.store now alreadyDeleted d
    { observe identity s store with
      log := s.log ++
        [(call, .swept .persistant (s.store.persistant.length - store.persistant.length)),
          (call, .finished deleted)] }

/-- A deletion only posts its first stage. The stages that wait for a store run in any order. -/
def step (s : Staged Cookie Instance) : Event → Option (Staged Cookie Instance)
  | .call c =>
    if c.routedBy.isSome then some (observe identity s (CookieRuns.onSplit lib cs s.store c).2)
    else none
  | .updateFavorites update => (s.store.updateFavorites lib update).map (observe identity s)
  | .deleteCookie url cookieName =>
    some { s with onTransient := s.onTransient ++ [.deleteCookie url cookieName] }
  | .delete d =>
    some { s with
      onTransient := s.onTransient ++ [.delete s.calls.length d ()]
      calls := s.calls ++ [⟨d, instances identity s.store⟩] }
  | .runTransient now task =>
    if task ∈ s.onTransient then
      some (transientStage cs identity
        { s with onTransient := s.onTransient.erase task } now task)
    else none
  | .runPersistant now task =>
    if task ∈ s.onPersistant then
      some (persistantStage cs identity
        { s with onPersistant := s.onPersistant.erase task } now task)
    else none

def initial (store : SplitCookieStore Cookie) : Staged Cookie Instance :=
  { store, issued := instances identity store }

/-- The two stages of a deletion with nothing in between are the call as a whole. -/
theorem stages_at_once (s : SplitCookieStore Cookie) (now : Time) (d : Deletion) :
    persistantDelete cs (s.onTransient (deleteOn cs now d)).2 now
      (s.onTransient (deleteOn cs now d)).1 d =
    match d with
    | .createdBetween b e => s.deleteAllCreatedBetween cs now b e
    | .createdBetweenForHost b e url => s.deleteAllCreatedBetweenForHost cs now b e url
    | .sessionCookies => s.deleteSessionCookies cs now := by
  cases d <;> rfl

end DeletionRuns

end Seaturtle
