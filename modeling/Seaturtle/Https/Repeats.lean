import Mathlib.Data.Finset.Card
import Seaturtle.Lib.Runs
import Seaturtle.Https.Rewriter

/-! How often one request is rewritten. Between two calls of `MaybeRewrite` its URL
may become anything: the `new_url` of the last call, or what a server redirects to. -/
namespace Seaturtle.Https.Repeats

structure Chase where
  request : URLRequest
  /-- The URLs at which `MaybeRewrite` set `new_url`, the latest first. -/
  rewritten : List Gurl := []
  deriving DecidableEq

inductive Event where
  | call (settings : Settings.HttpsRewrite)
  | become (url : Gurl)
  deriving DecidableEq

/-- A call that ends the process ends the run. -/
def step (env : Externals) (hr : HttpsRewriter) (c : Chase) : Event → Option Chase
  | .call settings =>
    match maybeRewrite env hr settings c.request with
    | .error _ => none
    | .ok (_, request, none) => some { c with request }
    | .ok (_, request, some _) => some { request, rewritten := c.request.url :: c.rewritten }
  | .become url => some { c with request := { c.request with url } }

variable {env : Externals} {hr : HttpsRewriter} {c c' : Chase}

/-- A call leaves the request as it is, or rewrites a URL the request does not
remember and has it remembered. -/
theorem call_cases {settings : Settings.HttpsRewrite}
    (called : step env hr c (.call settings) = some c') :
    c' = c ∨ c.request.url.spec ∉ c.request.prevRewrites ∧
      c' = { request := c.request.recordRewrite, rewritten := c.request.url :: c.rewritten } := by
  simp only [step] at called
  split at called
  · cases called
  · next code request outcome =>
    cases called
    rcases maybeRewrite_cases outcome with ⟨_, same, _⟩ | ⟨_, same, _⟩ | ⟨_, _, ⟨u, impossible⟩, _⟩
    · exact .inl (by rw [same])
    · exact .inl (by rw [same])
    · cases impossible
  · next code request newUrl outcome =>
    cases called
    rcases maybeRewrite_cases outcome with ⟨_, _, impossible, _⟩ | ⟨_, _, impossible, _⟩ |
      ⟨_, recorded, _, _, _, fresh⟩
    · cases impossible
    · cases impossible
    · exact .inr ⟨fresh, by rw [recorded]⟩

structure Remembered (c : Chase) : Prop where
  distinct : (c.rewritten.map (·.spec)).Nodup
  memory : ∀ u ∈ c.rewritten, u.spec ∈ c.request.prevRewrites

theorem step_remembered {e : Event} (h : Remembered c) (taken : step env hr c e = some c') :
    Remembered c' := by
  cases e with
  | become url =>
    cases taken
    exact ⟨h.distinct, h.memory⟩
  | call settings =>
    rcases call_cases taken with rfl | ⟨fresh, rfl⟩
    · exact h
    · constructor
      · have new : c.request.url.spec ∉ c.rewritten.map (·.spec) := by
          intro old
          obtain ⟨u, member, same⟩ := List.mem_map.mp old
          exact fresh (same ▸ h.memory u member)
        exact List.nodup_cons.mpr ⟨new, h.distinct⟩
      · intro u member
        have recorded := URLRequest.recordRewrite_prevRewrites c.request
        simp only [recorded, Finset.mem_insert]
        rcases List.mem_cons.mp member with rfl | old
        · exact .inl rfl
        · exact .inr (h.memory u old)

theorem step_within {e : Event} {urls : Finset Gurl} (h : ∀ u ∈ c.rewritten, u ∈ urls)
    (taken : step env hr c e = some c') (here : c.request.url ∈ urls) :
    ∀ u ∈ c'.rewritten, u ∈ urls := by
  cases e with
  | become url =>
    cases taken
    exact h
  | call settings =>
    rcases call_cases taken with rfl | ⟨_, rfl⟩
    · exact h
    · intro u member
      rcases List.mem_cons.mp member with rfl | old
      · exact here
      · exact h u old

/-- No two calls for a request rewrite the same spec, so a request whose URLs stay in a
finite set is rewritten at most once for each of them. -/
theorem no_url_rewritten_twice (env : Externals) (hr : HttpsRewriter) (request : URLRequest)
    {es : List Event} {t : Chase} (reached : Runs.run (step env hr) { request } es = some t) :
    (t.rewritten.map (·.spec)).Nodup ∧
      ∀ urls : Finset Gurl, Runs.Always (step env hr) (·.request.url ∈ urls) { request } es →
        t.rewritten.length ≤ urls.card := by
  have start : Remembered { request } :=
    ⟨List.nodup_nil, fun u none => (List.not_mem_nil none).elim⟩
  have distinct := (Runs.invariant start (fun c e c' => step_remembered) reached).distinct
  refine ⟨distinct, fun urls always => ?_⟩
  have within : ∀ u ∈ t.rewritten, u ∈ urls :=
    Runs.invariant_along (fun u none => (List.not_mem_nil none).elim)
      (fun c e c' h taken here => step_within h taken here) (Runs.along_of_always always) reached
  have set : t.rewritten.toFinset ⊆ urls := by
    intro u member
    exact within u (List.mem_toFinset.mp member)
  have once : t.rewritten.toFinset.card = t.rewritten.length :=
    List.toFinset_card_of_nodup distinct.of_map
  have bound := Finset.card_le_card set
  omega

def plain : Gurl := literal.parse "http://a.com/".toList
def secure : Gurl := literal.parse "https://a.com/".toList

/-- The server sends every upgraded request back to http. -/
def pingPong : List Event :=
  [.call ⟨true, true⟩, .become secure, .call ⟨true, true⟩, .become plain, .call ⟨true, false⟩,
    .become plain, .call ⟨true, true⟩]

theorem no_url_rewritten_twice_ping_pong :
    ∃ t, Runs.run (step literal {}) { request := { url := plain, firstPartyForCookies := plain } }
        pingPong = some t ∧
      (t.rewritten.map (·.spec)).Nodup ∧
      t.rewritten.length ≤ ({plain, secure} : Finset Gurl).card := by
  have reached : (Runs.run (step literal {})
      { request := { url := plain, firstPartyForCookies := plain } } pingPong).isSome = true := by
    decide +kernel
  obtain ⟨t, reached⟩ := Option.isSome_iff_exists.mp reached
  have once := no_url_rewritten_twice literal {} _ reached
  exact ⟨t, reached, once.1, once.2 {plain, secure} (by decide +kernel)⟩

end Seaturtle.Https.Repeats
