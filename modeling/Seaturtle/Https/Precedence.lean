import Seaturtle.Https.Index

/-! The one order in which the rules of the index, and the forced upgrade behind
them, have their turn. -/
namespace Seaturtle.Https

variable {env : Externals} {hr : HttpsRewriter} {settings : Settings.HttpsRewrite}

/-- A valid URL of the scheme http; its spec begins with the scheme. -/
structure ValidHttp (url : Gurl) : Prop where
  valid : url.isValid = true
  http : url.scheme = kHttp
  spec : kHttp <+: url.spec

/-- The text that becomes the new URL: what the first rule that matches makes of the
spec, or the forced upgrade. -/
def rewriteText (env : Externals) (rules : List (Str × Str)) (settings : Settings.HttpsRewrite)
    (spec : Str) : Option Str :=
  match rules.find? (matchesRule env spec) with
  | some rule => some (replaced env spec rule)
  | none => if settings.httpsOnly then some (kHttps ++ spec.drop 4) else none

/-- With a new URL the spec is recorded, without one nothing is. -/
def outcome (env : Externals) (request : URLRequest) : Option Str → URLRequest × Option Gurl
  | some text => (request.recordRewrite, some (env.parse text))
  | none => (request, none)

/-- What `DoRewrite` checks. -/
def ParsesValid (env : Externals) (text : Option Str) : Prop :=
  ∀ t, text = some t → (env.parse t).isValid = true

theorem forcedRewrite_http {url : Gurl} (h : ValidHttp url) :
    forcedRewrite url.spec = .ok (kHttps ++ url.spec.drop 4) :=
  forcedRewrite_eq.mpr ⟨h.spec.length_le, rfl⟩

/-- Exactly where there is a new URL the request remembers its spec. -/
theorem outcome_records {request : URLRequest} (fresh : request.url.spec ∉ request.prevRewrites)
    (text : Option Str) :
    request.url.spec ∈ (outcome env request text).1.prevRewrites ↔
      (outcome env request text).2.isSome = true := by
  cases text with
  | some t => simp [outcome]
  | none => simp [outcome, fresh]

theorem maybeRewrite_outcome (keeps : KeepsUnmatched env) (enabled : settings.enabled = true)
    {request : URLRequest} (http : ValidHttp request.url)
    (fresh : request.url.spec ∉ request.prevRewrites)
    (parses : ParsesValid env
      (rewriteText env (hr.rulesFor (lowerHost request.url)) settings request.url.spec)) :
    maybeRewrite env hr settings request = .ok (.ok, outcome env request
      (rewriteText env (hr.rulesFor (lowerHost request.url)) settings request.url.spec)) := by
  rw [maybeRewrite_eq keeps hr enabled http.http fresh]
  unfold rewriteText at parses ⊢
  cases first : (hr.rulesFor (lowerHost request.url)).find? (matchesRule env request.url.spec) with
  | some rule =>
    simp only [first] at parses
    simp only [doRewrite_valid (parses _ rfl)]
    rfl
  | none =>
    cases only : settings.httpsOnly with
    | false => rfl
    | true =>
      simp only [first, only, if_true] at parses
      simp only [forcedRewrite_http http, if_true]
      simp only [bind, Except.bind, doRewrite_valid (parses _ rfl)]
      rfl

/-- The exact host's rules, then those of each suffix of the host that has a dot, the
longest first: the first that matches makes the new URL. -/
theorem rewrite_precedence (env : Externals) (keeps : KeepsUnmatched env) (hr : HttpsRewriter)
    (settings : Settings.HttpsRewrite) (enabled : settings.enabled = true) (request : URLRequest)
    (http : ValidHttp request.url) (fresh : request.url.spec ∉ request.prevRewrites)
    (parses : ParsesValid env
      (rewriteText env (hr.rulesFor (lowerHost request.url)) settings request.url.spec)) :
    ∃ request' newUrl, maybeRewrite env hr settings request = .ok (.ok, request', newUrl) ∧
      (request', newUrl) = outcome env request
        (rewriteText env (hr.rulesFor (lowerHost request.url)) settings request.url.spec) ∧
      (request.url.spec ∈ request'.prevRewrites ↔ newUrl.isSome = true) :=
  ⟨_, _, maybeRewrite_outcome keeps enabled http fresh parses, rfl, outcome_records fresh _⟩

/-- A rule set for one host, under the key of its super host entry. -/
def onlySuper (host : Str) (rules : List (Str × Str)) : HttpsRewriter where
  superHost := HashMap.empty.set host ⟨rules⟩

theorem literal_parsesValid (text : Option Str) : ParsesValid literal text := fun _ _ => rfl

def toHttps : Str × Str := ("http:".toList, "https:".toList)

def subdomain : URLRequest := URLRequest.visit "http://www.a.com/".toList

theorem rewrite_precedence_subdomain :
    ∃ request' newUrl,
      maybeRewrite literal (onlySuper "a.com".toList [toHttps]) ⟨true, false⟩ subdomain =
        .ok (.ok, request', newUrl) ∧
      (request', newUrl) = outcome literal subdomain (some "https://www.a.com/".toList) ∧
      (subdomain.url.spec ∈ request'.prevRewrites ↔ newUrl.isSome = true) := by
  have text : rewriteText literal
      ((onlySuper "a.com".toList [toHttps]).rulesFor (lowerHost subdomain.url)) ⟨true, false⟩
      subdomain.url.spec = some "https://www.a.com/".toList := by decide +kernel
  have http : ValidHttp subdomain.url := ⟨rfl, by decide, by decide +kernel⟩
  have chosen := rewrite_precedence literal literal_keeps_unmatched
    (onlySuper "a.com".toList [toHttps]) ⟨true, false⟩ rfl subdomain http (URLRequest.visit_fresh _)
    (literal_parsesValid _)
  rwa [text] at chosen

/-- The rules with the host itself among the super hosts, with or without a dot. -/
def HttpsRewriter.rulesWithHost (hr : HttpsRewriter) (host : Str) : List (Str × Str) :=
  (Key.exact host :: Key.super host ::
    ((SuffixWalk.rests '.' host).filter ('.' ∈ ·)).map .super).flatMap hr.rulesAt

def localhost : URLRequest := URLRequest.visit "http://localhost/".toList

/-- The walk ends before it looks up a host without a dot. -/
theorem dotless_super_host_skipped :
    ¬ ∀ (env : Externals) (hr : HttpsRewriter) (settings : Settings.HttpsRewrite)
      (request : URLRequest), KeepsUnmatched env → settings.enabled = true →
      ValidHttp request.url → request.url.spec ∉ request.prevRewrites →
      ParsesValid env (rewriteText env (hr.rulesWithHost (lowerHost request.url)) settings
        request.url.spec) →
      maybeRewrite env hr settings request = .ok (.ok, outcome env request
        (rewriteText env (hr.rulesWithHost (lowerHost request.url)) settings
          request.url.spec)) := by
  intro always
  have http : ValidHttp localhost.url := ⟨rfl, by decide, by decide +kernel⟩
  have rewritten := always literal (onlySuper "localhost".toList [toHttps]) ⟨true, false⟩ localhost
    literal_keeps_unmatched rfl http (URLRequest.visit_fresh _) (literal_parsesValid _)
  have left : maybeRewrite literal (onlySuper "localhost".toList [toHttps]) ⟨true, false⟩
      localhost = .ok (.ok, outcome literal localhost none) := by
    have none_ : rewriteText literal
        ((onlySuper "localhost".toList [toHttps]).rulesFor (lowerHost localhost.url)) ⟨true, false⟩
        localhost.url.spec = none := by decide +kernel
    rw [maybeRewrite_outcome literal_keeps_unmatched rfl http (URLRequest.visit_fresh _)
      (literal_parsesValid _), none_]
  have asked : rewriteText literal ((onlySuper "localhost".toList [toHttps]).rulesWithHost
      (lowerHost localhost.url)) ⟨true, false⟩ localhost.url.spec =
        some "https://localhost/".toList := by decide +kernel
  rw [left, asked] at rewritten
  simp [outcome] at rewritten

end Seaturtle.Https
