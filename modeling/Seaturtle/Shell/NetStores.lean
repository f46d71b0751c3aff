import Seaturtle.Cookies.SplitCookieStore

/-! The HTTP caches and the transport security states of `net`, which are parameters. Each has
a part in memory, and the shared one a place on disk that it reads and writes when it likes. -/
namespace Seaturtle

def timeNull : Time := 0
def timeMax : Time := 0x7fffffffffffffff

structure NetStore where
  Memory : Type
  /-- What is on disk of it. -/
  File : Type
  /-- What is done to it, or what it does by itself: an entry is added, the backend opens, the
  file is read or written. -/
  Use : Type
  made : Memory
  noFile : File
  use : Use → Memory × File → Memory × File
  useInMemory : Use → Memory → Memory
  entries : Memory → List Str
  entriesOnDisk : File → List Str

/-- What the code calls on a `net::HttpCache`. -/
structure HttpCacheLibrary extends NetStore where
  /-- `GetCurrentBackend() != NULL`. -/
  hasBackend : Memory → Bool
  /-- `DoomAllEntries` of the backend, with all that it starts. -/
  doomAllEntries : Memory × File → Memory × File

/-- What the code calls on a `net::TransportSecurityState`. -/
structure HstsLibrary extends NetStore where
  /-- With the write of the file by the persister, if there is one to come. -/
  deleteAllDynamicDataSince : Time → Memory × File → Memory × File

structure NetLibrary where
  cache : HttpCacheLibrary
  hsts : HstsLibrary

/-- What is assumed of the deletions: doomed entries are gone; the persister is told of a
deletion if there was a dynamic entry to delete, and writes its file then and only then. -/
structure Clears (net : NetLibrary) : Prop where
  newCache : net.cache.entries net.cache.made = []
  unopened : ∀ m, net.cache.hasBackend m = false → net.cache.entries m = []
  doomed : ∀ m f, net.cache.hasBackend m = true →
    net.cache.entries (net.cache.doomAllEntries (m, f)).1 = [] ∧
      net.cache.entriesOnDisk (net.cache.doomAllEntries (m, f)).2 = []
  newHsts : net.hsts.entries net.hsts.made = []
  deleted : ∀ m f, net.hsts.entries (net.hsts.deleteAllDynamicDataSince timeNull (m, f)).1 = []
  told : ∀ m f, net.hsts.entries m ≠ [] →
    net.hsts.entriesOnDisk (net.hsts.deleteAllDynamicDataSince timeNull (m, f)).2 = []
  untold : ∀ m f, net.hsts.entries m = [] →
    (net.hsts.deleteAllDynamicDataSince timeNull (m, f)).2 = f

/-! Stores that keep just the keys of their entries. -/

inductive PlainCacheUse where
  | openBackend
  | write (key : Str)

/-- The backend opens over what is in the directory. -/
def plainCache : HttpCacheLibrary where
  Memory := Option (List Str)
  File := List Str
  Use := PlainCacheUse
  made := none
  noFile := []
  use
    | .openBackend, (_, dir) => (some dir, dir)
    | .write key, (some keys, dir) => (some (key :: keys), key :: dir)
    | .write _, (none, dir) => (none, dir)
  useInMemory
    | .openBackend, keys => some (keys.getD [])
    | .write key, keys => some (key :: keys.getD [])
  entries keys := keys.getD []
  entriesOnDisk := id
  hasBackend := Option.isSome
  doomAllEntries
    | (some _, _) => (some [], [])
    | (none, dir) => (none, dir)

inductive PlainHstsUse where
  | add (host : Str)
  | load
  | write

def plainHsts : HstsLibrary where
  Memory := List Str
  File := List Str
  Use := PlainHstsUse
  made := []
  noFile := []
  use
    | .add host, (hosts, file) => (host :: hosts, file)
    | .load, (hosts, file) => (if file.isEmpty then hosts else file, file)
    | .write, (hosts, _) => (hosts, hosts)
  useInMemory
    | .add host, hosts => host :: hosts
    | _, hosts => hosts
  entries := id
  entriesOnDisk := id
  deleteAllDynamicDataSince _
    | ([], file) => ([], file)
    | (_ :: _, _) => ([], [])

def plainNet : NetLibrary := ⟨plainCache, plainHsts⟩

theorem plainNet_clears : Clears plainNet := by
  constructor
  · rfl
  · rintro (_ | keys) shut
    · rfl
    · cases shut
  · rintro (_ | keys) dir opened
    · cases opened
    · exact ⟨rfl, rfl⟩
  · rfl
  · rintro (_ | ⟨host, hosts⟩) file
    · rfl
    · rfl
  · rintro (_ | ⟨host, hosts⟩) file some_
    · exact absurd rfl some_
    · rfl
  · rintro (_ | ⟨host, hosts⟩) file none
    · rfl
    · cases none

end Seaturtle
