import Seaturtle.Lib.Runs
import Seaturtle.Shell.RequestContext
import Mathlib.Algebra.Group.Nat.Defs
import Mathlib.Data.List.Nodup
import Mathlib.Data.List.Range

/-! The autocomplete fetches, and the order in which Java hears of them. A `Fetcher`
is made on the UI thread and deleted on the IO thread, under a number of its own. -/
namespace Seaturtle

inductive LoadFlag where
  | doNotSendCookies
  | doNotSaveCookies
  | disableCache
  | doNotSendAuthData
  deriving DecidableEq

/-- What `Init` sets in the `net::URLFetcher` that it starts. -/
structure UrlFetcher where
  url : Gurl
  requestContext : Client
  loadFlags : List LoadFlag
  autocompleteRequest : Bool
  deriving DecidableEq

structure Fetcher where
  id : Int
  url : Str
  /-- Null until `Init`. -/
  urlFetcher : Option UrlFetcher := none
  deriving DecidableEq

structure HttpFetchComplete where
  id : Int
  response : Int
  content : Str
  deriving DecidableEq

inductive FetchMessage where
  | httpFetchResponse (id : Int)
  | httpFetchComplete (message : HttpFetchComplete)
  deriving DecidableEq

inductive FetchPhase where
  | constructed
  | posted
  | responding (id : Int)
  deriving DecidableEq

/-- A call of `Fetch` that has not returned to Java. -/
structure FetchCall where
  fetcher : Nat
  phase : FetchPhase
  deriving DecidableEq

structure FetchSystem where
  /-- `seq`, an `Atomic32`. -/
  seq : BitVec 32 := 0
  fetchers : HashMap Nat Fetcher := .empty
  nextFetcher : Nat := 0
  /-- The ids that the calls of `Fetch` were given. -/
  ids : List Int := []
  /-- What the UI thread is in. -/
  calling : Option FetchCall := none
  ioQueue : List Nat := []
  fetchGetter : Option Client := none
  received : List FetchMessage := []

namespace FetchSystem

/-- `Fetcher::Fetcher`, with the id that `seq.GetNext()` returns. -/
def construct (w : FetchSystem) (url : Str) : FetchSystem :=
  { w with
    seq := w.seq + 1
    fetchers := w.fetchers.set w.nextFetcher { id := w.seq.toInt, url }
    nextFetcher := w.nextFetcher + 1
    ids := w.ids ++ [w.seq.toInt]
    calling := some ⟨w.nextFetcher, .constructed⟩ }

def init (parse : Str → Gurl) (w : FetchSystem) (ptr : Nat) (f : Fetcher) : FetchSystem :=
  let getter := w.fetchGetter.getD .fetcher
  let urlFetcher : UrlFetcher :=
    { url := parse f.url, requestContext := getter
      loadFlags := [.doNotSendCookies, .doNotSaveCookies, .disableCache, .doNotSendAuthData]
      autocompleteRequest := true }
  { w with
    fetchGetter := some getter
    fetchers := w.fetchers.set ptr { f with urlFetcher := some urlFetcher } }

/-- `f->id_`: what is read where `f` is gone is not determined. -/
def readId (w : FetchSystem) (ptr : Nat) (stale : Int) : Int :=
  ((w.fetchers ptr).map (·.id)).getD stale

/-- It ends in `delete this`. -/
def onURLFetchComplete (w : FetchSystem) (ptr : Nat) (f : Fetcher) (response : Int)
    (content : Str) : FetchSystem :=
  { w with
    received := w.received ++ [.httpFetchComplete ⟨f.id, response, content⟩]
    fetchers := w.fetchers.erase ptr }

end FetchSystem

namespace FetchRuns

/-- The calls of `Fetch` on the UI thread in four parts, and the tasks of the IO thread. -/
inductive Event where
  | construct (url : Str)
  | postInit
  /-- `set_http_fetch_response(f->id_)`. -/
  | setResponse (stale : Int)
  | returnToJava
  | init
  | onURLFetchComplete (fetcher : Nat) (response : Int) (content : Str)
  deriving DecidableEq

def step (parse : Str → Gurl) (w : FetchSystem) : Event → Option FetchSystem
  | .construct url => if w.calling = none then some (w.construct url) else none
  | .postInit =>
    match w.calling with
    | some ⟨ptr, .constructed⟩ =>
      some { w with calling := some ⟨ptr, .posted⟩, ioQueue := w.ioQueue ++ [ptr] }
    | _ => none
  | .setResponse stale =>
    match w.calling with
    | some ⟨ptr, .posted⟩ =>
      some { w with calling := some ⟨ptr, .responding (w.readId ptr stale)⟩ }
    | _ => none
  | .returnToJava =>
    match w.calling with
    | some ⟨_, .responding id⟩ =>
      some { w with calling := none, received := w.received ++ [.httpFetchResponse id] }
    | _ => none
  | .init =>
    match w.ioQueue with
    | [] => none
    | ptr :: queue => (w.fetchers ptr).map ({ w with ioQueue := queue }.init parse ptr)
  | .onURLFetchComplete ptr response content =>
    match w.fetchers ptr with
    | some f =>
      if f.urlFetcher.isSome then some (w.onURLFetchComplete ptr f response content) else none
    | none => none

def isFetch : Event → Bool
  | .construct _ => true
  | _ => false

def completed (received : List FetchMessage) : List Int :=
  received.filterMap fun
    | .httpFetchComplete message => some message.id
    | .httpFetchResponse _ => none

/-- Every completion comes after the response that carries its id. -/
def Ordered (received : List FetchMessage) : Prop :=
  ∀ before message after, received = before ++ .httpFetchComplete message :: after →
    .httpFetchResponse message.id ∈ before

structure AnsweredOnce (w : FetchSystem) : Prop where
  distinct : w.ids.Nodup
  once : (completed w.received).Nodup
  known : ∀ id ∈ completed w.received, id ∈ w.ids
  ordered : Ordered w.received

/-- The call of `Fetch` that made this fetcher has not returned to Java. -/
def InCall (w : FetchSystem) (ptr : Nat) : Prop := (w.calling.map (·.fetcher)) = some ptr

/-- A fetch completes after its call has returned. -/
def ReturnedFirst (w : FetchSystem) : Event → Prop
  | .onURLFetchComplete ptr _ _ => ¬ InCall w ptr
  | _ => True

instance (w : FetchSystem) (e : Event) : Decidable (ReturnedFirst w e) := by
  cases e <;> unfold ReturnedFirst
  case onURLFetchComplete => unfold InCall; infer_instance
  all_goals infer_instance

/-- The id of the n-th fetch. -/
def idAt (n : Nat) : Int := (BitVec.ofNat 32 n).toInt

theorem idAt_inj {m n : Nat} (hm : m < 2 ^ 31) (hn : n < 2 ^ 31) : idAt m = idAt n ↔ m = n := by
  rw [idAt, idAt, BitVec.toInt_inj]
  constructor
  · intro same
    have := congrArg BitVec.toNat same
    simp only [BitVec.toNat_ofNat] at this
    omega
  · exact congrArg _

/-- The fetches are numbered in order; the completed ones are gone. -/
structure Numbered (w : FetchSystem) : Prop where
  seq : w.seq = BitVec.ofNat 32 w.nextFetcher
  ids : w.ids = (List.range w.nextFetcher).map idAt
  live : ∀ n f, w.fetchers n = some f → n < w.nextFetcher ∧ f.id = idAt n
  gone : ∃ ns : List Nat, completed w.received = ns.map idAt ∧ ns.Nodup ∧
    ∀ n ∈ ns, n < w.nextFetcher ∧ w.fetchers n = none

variable {parse : Str → Gurl} {w w' : FetchSystem}

theorem Numbered.frame (h : Numbered w) (seq : w'.seq = w.seq)
    (next : w'.nextFetcher = w.nextFetcher) (ids : w'.ids = w.ids)
    (same : w'.fetchers = w.fetchers) (done : completed w'.received = completed w.received) :
    Numbered w' := by
  constructor
  · rw [seq, next, h.seq]
  · rw [ids, next, h.ids]
  · rw [same, next]
    exact h.live
  · rw [same, next, done]
    exact h.gone

theorem completed_append (received : List FetchMessage) (message : FetchMessage) :
    completed (received ++ [message]) = completed received ++ completed [message] :=
  List.filterMap_append

theorem construct_numbered (h : Numbered w) (url : Str) : Numbered (w.construct url) := by
  have id : w.seq.toInt = idAt w.nextFetcher := by rw [h.seq, idAt]
  obtain ⟨ns, done, once, gone⟩ := h.gone
  constructor
  · simp only [FetchSystem.construct, h.seq, BitVec.ofNat_add]
    rfl
  · simp only [FetchSystem.construct, h.ids, id, List.range_succ, List.map_append, List.map_cons,
      List.map_nil]
  · intro n f found
    rcases HashMap.set_some found with ⟨rfl, rfl⟩ | ⟨_, old⟩
    · exact ⟨Nat.lt_succ_self _, id⟩
    · obtain ⟨below, same⟩ := h.live n f old
      exact ⟨Nat.lt_succ_of_lt below, same⟩
  · refine ⟨ns, done, once, fun n member => ?_⟩
    obtain ⟨below, absent⟩ := gone n member
    constructor
    · exact Nat.lt_succ_of_lt below
    · simp only [FetchSystem.construct, HashMap.set_apply, if_neg (Nat.ne_of_lt below), absent]

theorem init_numbered (h : Numbered w) {ptr : Nat} {f : Fetcher} {queue : List Nat}
    (found : w.fetchers ptr = some f) :
    Numbered ({ w with ioQueue := queue }.init parse ptr f) := by
  obtain ⟨ns, done, once, gone⟩ := h.gone
  constructor
  · exact h.seq
  · exact h.ids
  · intro n g made
    rcases HashMap.set_some made with ⟨rfl, rfl⟩ | ⟨_, old⟩
    · exact h.live n f found
    · exact h.live n g old
  · refine ⟨ns, done, once, fun n member => ?_⟩
    obtain ⟨below, absent⟩ := gone n member
    have other : n ≠ ptr := by
      rintro rfl
      rw [absent] at found
      cases found
    constructor
    · exact below
    · simp only [FetchSystem.init, HashMap.set_apply, if_neg other, absent]

theorem complete_numbered (h : Numbered w) {ptr : Nat} {f : Fetcher}
    (found : w.fetchers ptr = some f) (response : Int) (content : Str) :
    Numbered (w.onURLFetchComplete ptr f response content) := by
  obtain ⟨ns, done, once, gone⟩ := h.gone
  obtain ⟨below, same⟩ := h.live ptr f found
  have unfinished : ptr ∉ ns := by
    intro member
    rw [(gone ptr member).2] at found
    cases found
  constructor
  · exact h.seq
  · exact h.ids
  · intro n g kept
    exact h.live n g (HashMap.erase_some kept).2
  · have distinct := once.concat unfinished
    rw [List.concat_eq_append] at distinct
    refine ⟨ns ++ [ptr], ?_, distinct, fun n member => ?_⟩
    · simp only [FetchSystem.onURLFetchComplete, completed_append, done, List.map_append]
      simp [completed, same]
    · simp only [FetchSystem.onURLFetchComplete, HashMap.erase_apply]
      rcases List.mem_append.mp member with old | here
      · obtain ⟨bound, absent⟩ := gone n old
        have other : n ≠ ptr := fun here => unfinished (here ▸ old)
        exact ⟨bound, by rw [if_neg other, absent]⟩
      · cases List.mem_singleton.mp here
        exact ⟨below, if_pos rfl⟩

/-- What a step can do, with the part of the state that it reads. -/
theorem step_cases {e : Event} (hs : step parse w e = some w') :
    (∃ url, e = .construct url ∧ w.calling = none ∧ w' = w.construct url) ∨
    (∃ ptr, e = .postInit ∧ w.calling = some ⟨ptr, .constructed⟩ ∧
      w' = { w with calling := some ⟨ptr, .posted⟩, ioQueue := w.ioQueue ++ [ptr] }) ∨
    (∃ stale ptr, e = .setResponse stale ∧ w.calling = some ⟨ptr, .posted⟩ ∧
      w' = { w with calling := some ⟨ptr, .responding (w.readId ptr stale)⟩ }) ∨
    (∃ ptr id, e = .returnToJava ∧ w.calling = some ⟨ptr, .responding id⟩ ∧
      w' = { w with calling := none, received := w.received ++ [.httpFetchResponse id] }) ∨
    (∃ ptr queue f, e = .init ∧ w.ioQueue = ptr :: queue ∧ w.fetchers ptr = some f ∧
      w' = { w with ioQueue := queue }.init parse ptr f) ∨
    (∃ ptr response content f, e = .onURLFetchComplete ptr response content ∧
      w.fetchers ptr = some f ∧ w' = w.onURLFetchComplete ptr f response content) := by
  cases e with
  | construct url =>
    simp only [step] at hs
    split at hs
    · next idle =>
      cases hs
      exact .inl ⟨url, rfl, idle, rfl⟩
    · cases hs
  | postInit =>
    simp only [step] at hs
    split at hs
    · next ptr calling =>
      cases hs
      exact .inr (.inl ⟨ptr, rfl, calling, rfl⟩)
    · cases hs
  | setResponse stale =>
    simp only [step] at hs
    split at hs
    · next ptr calling =>
      cases hs
      exact .inr (.inr (.inl ⟨stale, ptr, rfl, calling, rfl⟩))
    · cases hs
  | returnToJava =>
    simp only [step] at hs
    split at hs
    · next ptr id calling =>
      cases hs
      exact .inr (.inr (.inr (.inl ⟨ptr, id, rfl, calling, rfl⟩)))
    · cases hs
  | init =>
    simp only [step] at hs
    split at hs
    · cases hs
    · next ptr queue tasks =>
      obtain ⟨f, found, rfl⟩ := Option.map_eq_some_iff.mp hs
      exact .inr (.inr (.inr (.inr (.inl ⟨ptr, queue, f, rfl, tasks, found, rfl⟩))))
  | onURLFetchComplete ptr response content =>
    simp only [step] at hs
    split at hs
    · next f found =>
      split at hs
      · cases hs
        exact .inr (.inr (.inr (.inr (.inr ⟨ptr, response, content, f, rfl, found, rfl⟩))))
      · cases hs
    · cases hs

theorem step_numbered {e : Event} (h : Numbered w) (hs : step parse w e = some w') :
    Numbered w' := by
  rcases step_cases hs with ⟨url, _, _, rfl⟩ | ⟨ptr, _, _, rfl⟩ | ⟨stale, ptr, _, _, rfl⟩ |
    ⟨ptr, id, _, _, rfl⟩ | ⟨ptr, queue, f, _, _, found, rfl⟩ |
    ⟨ptr, response, content, f, _, found, rfl⟩
  · exact construct_numbered h url
  · exact h.frame rfl rfl rfl rfl rfl
  · exact h.frame rfl rfl rfl rfl rfl
  · refine h.frame rfl rfl rfl rfl ?_
    rw [completed_append]
    exact List.append_nil _
  · exact init_numbered h found
  · exact complete_numbered h found response content

theorem initial_numbered : Numbered {} := ⟨rfl, rfl, nofun, [], rfl, List.nodup_nil, nofun⟩

/-- Also where a fetch overtakes its own id, each completes at most once and under the
id that it was given. -/
theorem run_numbered {es : List Event} {t : FetchSystem}
    (reached : Runs.run (step parse) {} es = some t) : Numbered t :=
  Runs.invariant initial_numbered (fun _ _ _ => step_numbered) reached

/-- Fewer than 2^31 fetches: at most the id of each is given out, once. -/
theorem Numbered.answered (h : Numbered w) (few : w.nextFetcher < 2 ^ 31)
    (ordered : Ordered w.received) : AnsweredOnce w := by
  obtain ⟨ns, done, once, gone⟩ := h.gone
  constructor
  · rw [h.ids]
    refine List.Nodup.map_on (fun m hm n hn same => ?_) List.nodup_range
    rw [List.mem_range] at hm hn
    exact (idAt_inj (by omega) (by omega)).mp same
  · rw [done]
    refine List.Nodup.map_on (fun m hm n hn same => ?_) once
    have := (gone m hm).1
    have := (gone n hn).1
    exact (idAt_inj (by omega) (by omega)).mp same
  · intro id member
    rw [done] at member
    obtain ⟨n, completes, rfl⟩ := List.mem_map.mp member
    rw [h.ids]
    exact List.mem_map_of_mem (List.mem_range.mpr (gone n completes).1)
  · exact ordered

/-- Java has the ids of the calls that returned, and the fetcher of the call that did
not is alive. -/
structure Returning (w : FetchSystem) : Prop where
  numbered : Numbered w
  ordered : Ordered w.received
  answered : ∀ n < w.nextFetcher, ¬ InCall w n → .httpFetchResponse (idAt n) ∈ w.received
  responses : ∀ id, .httpFetchResponse id ∈ w.received →
    ∃ n < w.nextFetcher, id = idAt n ∧ ¬ InCall w n
  called : ∀ call, w.calling = some call → call.fetcher < w.nextFetcher ∧
    (w.fetchers call.fetcher).isSome ∧ ∀ id, call.phase = .responding id → id = idAt call.fetcher

theorem ordered_response {received : List FetchMessage} (h : Ordered received) (id : Int) :
    Ordered (received ++ [.httpFetchResponse id]) := by
  intro before message after split
  rcases Runs.concat_split.mp split with ⟨_, _, impossible⟩ | ⟨rest, _, same⟩
  · cases impossible
  · exact h before message rest same

theorem ordered_complete {received : List FetchMessage} {message : HttpFetchComplete} :
    Ordered (received ++ [.httpFetchComplete message]) ↔
      Ordered received ∧ .httpFetchResponse message.id ∈ received := by
  constructor
  · intro h
    refine ⟨fun before m after split => ?_, h received message [] rfl⟩
    exact h before m (after ++ [.httpFetchComplete message]) (by simp [split])
  · rintro ⟨h, here⟩ before m after split
    rcases Runs.concat_split.mp split with ⟨_, rfl, same⟩ | ⟨rest, _, same⟩
    · cases same
      exact here
    · exact h before m rest same

theorem not_inCall (idle : w.calling = none) (n : Nat) : ¬ InCall w n := by simp [InCall, idle]

theorem inCall_iff {call : FetchCall} (calling : w.calling = some call) (n : Nat) :
    InCall w n ↔ call.fetcher = n := by simp [InCall, calling]

theorem construct_returning (h : Returning w) (idle : w.calling = none) (url : Str) :
    Returning (w.construct url) := by
  have here (n : Nat) : InCall (w.construct url) n ↔ w.nextFetcher = n := by
    simp [InCall, FetchSystem.construct]
  constructor
  · exact construct_numbered h.numbered url
  · exact h.ordered
  · intro n below elsewhere
    have other : w.nextFetcher ≠ n := fun same => elsewhere ((here n).mpr same)
    have before : n < w.nextFetcher := by
      have : n < w.nextFetcher + 1 := below
      omega
    exact h.answered n before (not_inCall idle n)
  · intro id member
    obtain ⟨n, below, same, _⟩ := h.responses id member
    refine ⟨n, Nat.lt_succ_of_lt below, same, fun calling => ?_⟩
    exact Nat.ne_of_gt below ((here n).mp calling)
  · intro call calling
    cases calling
    refine ⟨Nat.lt_succ_self _, ?_, nofun⟩
    simp [FetchSystem.construct, HashMap.set_apply]

theorem phase_returning {ptr : Nat} {phase phase' : FetchPhase} {queue : List Nat}
    (h : Returning w) (calling : w.calling = some ⟨ptr, phase⟩)
    (right : ∀ id, phase' = .responding id → id = idAt ptr) :
    Returning { w with calling := some ⟨ptr, phase'⟩, ioQueue := queue } := by
  have same (n : Nat) :
      InCall { w with calling := some ⟨ptr, phase'⟩, ioQueue := queue } n ↔ InCall w n := by
    simp [InCall, calling]
  constructor
  · exact h.numbered.frame rfl rfl rfl rfl rfl
  · exact h.ordered
  · exact fun n below elsewhere => h.answered n below fun inside => elsewhere ((same n).mpr inside)
  · intro id member
    obtain ⟨n, below, carried, elsewhere⟩ := h.responses id member
    exact ⟨n, below, carried, fun inside => elsewhere ((same n).mp inside)⟩
  · intro call now
    cases now
    obtain ⟨below, alive, _⟩ := h.called _ calling
    exact ⟨below, alive, right⟩

theorem return_returning {ptr : Nat} {id : Int} (h : Returning w)
    (calling : w.calling = some ⟨ptr, .responding id⟩) :
    Returning { w with calling := none, received := w.received ++ [.httpFetchResponse id] } := by
  obtain ⟨below, _, right⟩ := h.called _ calling
  have mine : id = idAt ptr := right id rfl
  constructor
  · refine h.numbered.frame rfl rfl rfl rfl ?_
    rw [completed_append]
    exact List.append_nil _
  · exact ordered_response h.ordered id
  · intro n bound _
    by_cases here : ptr = n
    · simp [← here, mine]
    · exact List.mem_append_left _ (h.answered n bound fun inside =>
        here ((inCall_iff calling n).mp inside))
  · intro other member
    rcases List.mem_append.mp member with old | new
    · obtain ⟨n, bound, same, _⟩ := h.responses other old
      exact ⟨n, bound, same, not_inCall rfl n⟩
    · cases List.mem_singleton.mp new
      exact ⟨ptr, below, mine, not_inCall rfl ptr⟩
  · exact nofun

theorem init_returning {ptr : Nat} {queue : List Nat} {f : Fetcher} (h : Returning w)
    (found : w.fetchers ptr = some f) :
    Returning ({ w with ioQueue := queue }.init parse ptr f) := by
  constructor
  · exact init_numbered h.numbered found
  · exact h.ordered
  · exact h.answered
  · exact h.responses
  · intro call calling
    obtain ⟨below, alive, right⟩ := h.called call calling
    have still : (({ w with ioQueue := queue }.init parse ptr f).fetchers call.fetcher).isSome := by
      simp only [FetchSystem.init, HashMap.set_apply]
      split
      · rfl
      · exact alive
    exact ⟨below, still, right⟩

theorem complete_returning {ptr : Nat} {f : Fetcher} (h : Returning w)
    (found : w.fetchers ptr = some f) (response : Int) (content : Str) (returned : ¬ InCall w ptr) :
    Returning (w.onURLFetchComplete ptr f response content) := by
  obtain ⟨below, same⟩ := h.numbered.live ptr f found
  have answered := h.answered ptr below returned
  rw [← same] at answered
  constructor
  · exact complete_numbered h.numbered found response content
  · exact ordered_complete.mpr ⟨h.ordered, answered⟩
  · exact fun n bound elsewhere => List.mem_append_left _ (h.answered n bound elsewhere)
  · intro id member
    apply h.responses
    rcases List.mem_append.mp member with old | new
    · exact old
    · cases List.mem_singleton.mp new
  · intro call calling
    obtain ⟨bound, alive, right⟩ := h.called call calling
    have other : call.fetcher ≠ ptr := fun here => returned ((inCall_iff calling ptr).mpr here)
    have still : ((w.onURLFetchComplete ptr f response content).fetchers call.fetcher).isSome := by
      simpa [FetchSystem.onURLFetchComplete, HashMap.erase_apply, other] using alive
    exact ⟨bound, still, right⟩

theorem step_returning {e : Event} (h : Returning w) (hs : step parse w e = some w')
    (returned : ReturnedFirst w e) : Returning w' := by
  rcases step_cases hs with ⟨url, _, idle, rfl⟩ | ⟨ptr, _, calling, rfl⟩ |
    ⟨stale, ptr, _, calling, rfl⟩ | ⟨ptr, id, _, calling, rfl⟩ | ⟨ptr, queue, f, _, _, found, rfl⟩ |
    ⟨ptr, response, content, f, rfl, found, rfl⟩
  · exact construct_returning h idle url
  · exact phase_returning h calling nofun
  · apply phase_returning h calling
    intro id responding
    obtain ⟨_, alive, _⟩ := h.called _ calling
    obtain ⟨f, found⟩ := Option.isSome_iff_exists.mp alive
    cases responding
    simp only [FetchSystem.readId, found, Option.map_some, Option.getD_some]
    exact (h.numbered.live ptr f found).2
  · exact return_returning h calling
  · exact init_returning h found
  · exact complete_returning h found response content returned

/-- A fetch that completes during its call is told of before its id is. -/
theorem step_answered {e : Event} (h : Returning w) (few : w.nextFetcher < 2 ^ 31)
    (hs : step parse w e = some w') (ordered : Ordered w'.received) : ReturnedFirst w e := by
  rcases step_cases hs with ⟨url, rfl, _⟩ | ⟨ptr, rfl, _⟩ | ⟨stale, ptr, rfl, _⟩ |
    ⟨ptr, id, rfl, _⟩ | ⟨ptr, queue, f, rfl, _⟩ | ⟨ptr, response, content, f, rfl, found, rfl⟩
  · trivial
  · trivial
  · trivial
  · trivial
  · trivial
  · intro inside
    obtain ⟨below, same⟩ := h.numbered.live ptr f found
    obtain ⟨n, bound, carried, elsewhere⟩ := h.responses f.id (ordered_complete.mp ordered).2
    rw [same, idAt_inj (by omega) (by omega)] at carried
    exact elsewhere (carried ▸ inside)

theorem step_nextFetcher {e : Event} (hs : step parse w e = some w') :
    w'.nextFetcher = w.nextFetcher + if isFetch e then 1 else 0 := by
  rcases step_cases hs with ⟨url, rfl, _, rfl⟩ | ⟨ptr, rfl, _, rfl⟩ | ⟨stale, ptr, rfl, _, rfl⟩ |
    ⟨ptr, id, rfl, _, rfl⟩ | ⟨ptr, queue, f, rfl, _, _, rfl⟩ | ⟨ptr, _, _, f, rfl, _, rfl⟩
  all_goals rfl

/-- In every state of a run of fewer than 2^31 fetches each is answered once, its id
first, exactly when no fetch completes before its call has returned. -/
theorem fetches_answered_in_order_iff (parse : Str → Gurl) (es : List Event)
    (few : es.countP isFetch < 2 ^ 31) :
    Runs.Always (step parse) AnsweredOnce {} es ↔
      Runs.Along (step parse) (fun w e _ => ReturnedFirst w e) {} es := by
  apply Runs.always_iff_along_ahead fun w ahead =>
    Returning w ∧ w.nextFetcher + ahead.countP isFetch < 2 ^ 31
  · refine ⟨⟨initial_numbered, ?_, ?_, ?_, nofun⟩, by simpa using few⟩
    · intro before message after impossible
      simp at impossible
    · exact fun n below => (Nat.not_lt_zero n below).elim
    · exact fun id member => (List.not_mem_nil member).elim
  · rintro w e ahead w' ⟨h, few⟩ hs returned
    refine ⟨step_returning h hs returned, ?_⟩
    rw [step_nextFetcher hs]
    rw [List.countP_cons] at few
    omega
  · rintro w ahead ⟨h, few⟩
    exact h.numbered.answered (by omega) h.ordered
  · rintro w e ahead w' ⟨h, few⟩ hs answered
    exact step_answered h (by omega) hs answered.ordered

def patient : List Event :=
  [.construct "http://a.com/?q=b".toList, .postInit, .init, .setResponse 0, .returnToJava,
    .construct "http://a.com/?q=bc".toList, .onURLFetchComplete 0 200 "[]".toList, .postInit]

theorem fetches_answered_in_order_iff_patient :
    Runs.Always (step Gurl.parseCanonical) AnsweredOnce {} patient :=
  (fetches_answered_in_order_iff Gurl.parseCanonical patient (by decide)).mpr (by decide +kernel)

/-- The IO thread is done with a fetch before the UI thread has told Java its id. -/
def instant : List Event :=
  [.construct "x:".toList, .postInit, .init, .onURLFetchComplete 0 (-1) [], .setResponse 0,
    .returnToJava]

theorem completion_overtakes_id :
    (Runs.run (step Gurl.parseCanonical) {} instant).map (·.received) =
        some [.httpFetchComplete ⟨0, -1, []⟩, .httpFetchResponse 0] ∧
      ¬ ∀ parse es, es.countP isFetch < 2 ^ 31 → Runs.Always (step parse) AnsweredOnce {} es := by
  have ends : (Runs.run (step Gurl.parseCanonical) {} instant).map (·.received) =
      some [.httpFetchComplete ⟨0, -1, []⟩, .httpFetchResponse 0] := by decide +kernel
  refine ⟨ends, fun always => ?_⟩
  obtain ⟨t, reached, received⟩ := Option.map_eq_some_iff.mp ends
  have answered := Runs.always_last (always Gurl.parseCanonical instant (by decide)) reached
  exact List.not_mem_nil (answered.ordered [] _ _ received)

end FetchRuns

end Seaturtle
