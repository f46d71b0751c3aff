import Seaturtle.Block.Blocker

namespace Seaturtle.Blocker
open SuffixWalk (Under)

/-! The blacklist against the naive scan of the rules, and the whitelist against
the union of its entries. -/

theorem blacklist_lookup (rules : List Blocking.Rule) (blacklist : HashMap Str Str) (d : Str) :
    (rules.foldl addRule blacklist d).isSome = true ↔
      (blacklist d).isSome = true ∨
        ∃ rule ∈ rules, rule.blockThirdParty = true ∧ rule.domain = d := by
  induction rules generalizing blacklist with
  | nil => simp
  | cons rule rules ih =>
    rw [List.foldl_cons, ih, List.exists_mem_cons_iff, ← or_assoc]
    apply or_congr_left
    by_cases third : rule.blockThirdParty = true
    · by_cases here : rule.domain = d
      · simp [addRule, HashMap.set_apply, third, here]
      · simp [addRule, HashMap.set_apply, third, here, Ne.symm here]
    · simp [addRule, third]

theorem evil_iff (b : Blocker) (rl : Blocking.RuleList) (host : Str) :
    (b.updateRulesForBrowserProcess rl).isHostEvilThirdParty host = true ↔
      ∃ rule ∈ rl.rule, rule.blockThirdParty = true ∧ rule.domain = host := by
  unfold isHostEvilThirdParty updateRulesForBrowserProcess
  simp [blacklist_lookup]

theorem should_block_iff (b : Blocker) (s : AllSettings) (url : Gurl) :
    b.shouldBlockThirdPartyRequest s url = true ↔
      s.filters.blacklistThirdParties = true ∧
        ∃ d, '.' ∈ d ∧ Under '.' d (lowerHost url) ∧ b.isHostEvilThirdParty d = true := by
  unfold shouldBlockThirdPartyRequest
  cases on : s.filters.blacklistThirdParties with
  | false => simp
  | true => simpa using SuffixWalk.search_flag_iff '.' b.isHostEvilThirdParty (lowerHost url)

/-- Some blocking rule of the list names a domain with a dot that the host is or
is below. -/
def NamedByRule (rl : Blocking.RuleList) (host : Str) : Prop :=
  ∃ rule ∈ rl.rule, rule.blockThirdParty = true ∧ '.' ∈ rule.domain ∧ Under '.' rule.domain host

/-- The hash-and-suffix walk decides what a scan of the rules decides, for every
host string. -/
theorem blocking_is_naive_scan (b : Blocker) (rl : Blocking.RuleList) (s : AllSettings)
    (url : Gurl) :
    (b.updateRulesForBrowserProcess rl).shouldBlockThirdPartyRequest s url = true ↔
      s.filters.blacklistThirdParties = true ∧ NamedByRule rl (lowerHost url) := by
  rw [should_block_iff]
  apply and_congr_right
  intro _
  constructor
  · rintro ⟨d, dot, under, evil⟩
    obtain ⟨rule, member, third, rfl⟩ := (evil_iff b rl d).mp evil
    exact ⟨rule, member, third, dot, under⟩
  · rintro ⟨rule, member, third, dot, under⟩
    exact ⟨rule.domain, dot, under, (evil_iff b rl _).mpr ⟨rule, member, third, rfl⟩⟩

/-! The whitelist. -/

def entriesFor (entries : List WhitelistedHost) (host : Str) : List WhitelistedHost :=
  entries.filter fun wh => stringToLowerASCII wh.host = host

def listedPaths (entries : List WhitelistedHost) : WhitelistPaths :=
  entries.flatMap fun wh => wh.path.map stringToLowerASCII

/-- What the merge loop leaves for a host: the paths of all its entries, appended. -/
theorem whitelist_lookup (entries : List WhitelistedHost) (whitelist : WhitelistMap) (host : Str) :
    entries.foldl addWhitelistedHost whitelist host =
      if entriesFor entries host = [] then whitelist host
      else some ((whitelist host).getD [] ++ listedPaths (entriesFor entries host)) := by
  induction entries generalizing whitelist with
  | nil => rfl
  | cons wh entries ih =>
    rw [List.foldl_cons, ih]
    by_cases same : stringToLowerASCII wh.host = host
    · have first : entriesFor (wh :: entries) host = wh :: entriesFor entries host := by
        simp [entriesFor, same]
      have merged : addWhitelistedHost whitelist wh host =
          some ((whitelist host).getD [] ++ wh.path.map stringToLowerASCII) := by
        unfold addWhitelistedHost
        rw [same]
        cases whitelist host <;> simp [HashMap.set_apply]
      rw [first, merged]
      by_cases last : entriesFor entries host = []
      · simp [last, listedPaths]
      · simp [last, listedPaths]
    · have skipped : entriesFor (wh :: entries) host = entriesFor entries host := by
        simp [entriesFor, same]
      have kept : addWhitelistedHost whitelist wh host = whitelist host := by
        unfold addWhitelistedHost
        have other : host ≠ stringToLowerASCII wh.host := Ne.symm same
        cases whitelist (stringToLowerASCII wh.host) <;> simp [HashMap.set_apply, other]
      rw [skipped, kept]

theorem mem_listedPaths {entries : List WhitelistedHost} {path : Str} :
    path ∈ listedPaths entries ↔ ∃ wh ∈ entries, ∃ p ∈ wh.path, stringToLowerASCII p = path := by
  simp [listedPaths]

theorem listedPaths_eq_nil {entries : List WhitelistedHost} :
    listedPaths entries = [] ↔ ∀ wh ∈ entries, wh.path = [] := by
  simp [listedPaths]

/-! A whitelist message against the union of its entries. -/

def ForHostOf (wh : WhitelistedHost) (url : Gurl) : Prop :=
  stringToLowerASCII wh.host = lowerHost url

def ListsPathOf (wh : WhitelistedHost) (url : Gurl) : Prop :=
  ∃ p ∈ wh.path, stringToLowerASCII p = stringToLowerASCII url.path

def WhitelistedBy (wh : WhitelistedHost) (url : Gurl) : Prop :=
  ForHostOf wh url ∧ (wh.path = [] ∨ ListsPathOf wh url)

def WhitelistedByUnion (ubw : UpdateBlockingWhitelist) (url : Gurl) : Prop :=
  url.scheme = kKryptonScheme ∨ ∃ wh ∈ ubw.whitelistedHost, WhitelistedBy wh url

instance (wh : WhitelistedHost) (url : Gurl) : Decidable (WhitelistedBy wh url) := by
  unfold WhitelistedBy ForHostOf ListsPathOf
  infer_instance

theorem mem_entriesFor {ubw : UpdateBlockingWhitelist} {wh : WhitelistedHost} {url : Gurl} :
    wh ∈ entriesFor ubw.whitelistedHost (lowerHost url) ↔
      wh ∈ ubw.whitelistedHost ∧ ForHostOf wh url := by
  simp [entriesFor, ForHostOf]

theorem isWhitelisted_iff (b : Blocker) (ubw : UpdateBlockingWhitelist) (url : Gurl) :
    (b.updateWhitelist ubw).isWhitelisted url = true ↔
      url.scheme = kKryptonScheme ∨
        (∃ wh ∈ ubw.whitelistedHost, ForHostOf wh url) ∧
          ((∀ wh ∈ ubw.whitelistedHost, ForHostOf wh url → wh.path = []) ∨
            ∃ wh ∈ ubw.whitelistedHost, ForHostOf wh url ∧ ListsPathOf wh url) := by
  have lookup := whitelist_lookup ubw.whitelistedHost .empty (lowerHost url)
  have nonempty : entriesFor ubw.whitelistedHost (lowerHost url) ≠ [] ↔
      ∃ wh ∈ ubw.whitelistedHost, ForHostOf wh url := by
    simp only [ne_eq, List.eq_nil_iff_forall_not_mem, not_forall, not_not, mem_entriesFor]
  have whole : listedPaths (entriesFor ubw.whitelistedHost (lowerHost url)) = [] ↔
      ∀ wh ∈ ubw.whitelistedHost, ForHostOf wh url → wh.path = [] := by
    simp only [listedPaths_eq_nil, mem_entriesFor, and_imp]
  have listed : stringToLowerASCII url.path ∈
      listedPaths (entriesFor ubw.whitelistedHost (lowerHost url)) ↔
        ∃ wh ∈ ubw.whitelistedHost, ForHostOf wh url ∧ ListsPathOf wh url := by
    simp only [mem_listedPaths, mem_entriesFor, and_assoc, ListsPathOf]
  rw [← nonempty, ← whole, ← listed]
  unfold isWhitelisted updateWhitelist Gurl.schemeIs
  simp only [lookup]
  by_cases krypton : url.scheme = kKryptonScheme
  · simp [krypton]
  · by_cases none : entriesFor ubw.whitelistedHost (lowerHost url) = []
    · simp [krypton, none]
    · simp [krypton, none]

/-- The message mixes both kinds of entries for the URL's host, and none of the
paths is the URL's. -/
def LosesWholeHost (ubw : UpdateBlockingWhitelist) (url : Gurl) : Prop :=
  (∃ wh ∈ ubw.whitelistedHost, ForHostOf wh url ∧ wh.path = []) ∧
  (∃ wh ∈ ubw.whitelistedHost, ForHostOf wh url ∧ wh.path ≠ []) ∧
  ∀ wh ∈ ubw.whitelistedHost, ForHostOf wh url → ¬ ListsPathOf wh url

/-- The whitelist is the union of its entries except where a per-path entry takes
the place of a whole-host entry. -/
theorem whitelist_is_union_iff (b : Blocker) (ubw : UpdateBlockingWhitelist) (url : Gurl) :
    ((b.updateWhitelist ubw).isWhitelisted url = true ↔ WhitelistedByUnion ubw url) ↔
      url.scheme = kKryptonScheme ∨ ¬ LosesWholeHost ubw url := by
  rw [isWhitelisted_iff]
  unfold WhitelistedByUnion
  by_cases krypton : url.scheme = kKryptonScheme
  · simp [krypton]
  · simp only [krypton, false_or]
    constructor
    · rintro same ⟨⟨wh, member, host, empty⟩, ⟨wh', member', host', paths⟩, unlisted⟩
      rcases (same.mpr ⟨wh, member, host, .inl empty⟩).2 with all | ⟨w, hw, hh, hp⟩
      · exact paths (all wh' member' host')
      · exact unlisted w hw hh hp
    · intro kept
      constructor
      · rintro ⟨⟨wh, member, host⟩, all | ⟨w, hw, hh, hp⟩⟩
        · exact ⟨wh, member, host, .inl (all wh member host)⟩
        · exact ⟨w, hw, hh, .inr hp⟩
      · rintro ⟨wh, member, host, empty | path⟩
        · refine ⟨⟨wh, member, host⟩, ?_⟩
          by_contra neither
          rw [not_or] at neither
          refine kept ⟨⟨wh, member, host, empty⟩, ?_, ?_⟩
          · by_contra none
            apply neither.1
            intro w hw hh
            by_contra paths
            exact none ⟨w, hw, hh, paths⟩
          · exact fun w hw hh hp => neither.2 ⟨w, hw, hh, hp⟩
        · exact ⟨⟨wh, member, host⟩, .inr ⟨wh, member, host, path⟩⟩

/-- `a.com` is exempt as a whole and `a.com/x` once more; `a.com/y` is exempt no longer. -/
theorem whole_host_entry_lost :
    ¬ ((({} : Blocker).updateWhitelist
        ⟨[⟨"a.com".toList, []⟩, ⟨"a.com".toList, ["/x".toList]⟩]⟩).isWhitelisted
          ⟨"http://a.com/y".toList, true, kHttp, "a.com".toList, "/y".toList⟩ = true ↔
      WhitelistedByUnion ⟨[⟨"a.com".toList, []⟩, ⟨"a.com".toList, ["/x".toList]⟩]⟩
        ⟨"http://a.com/y".toList, true, kHttp, "a.com".toList, "/y".toList⟩) := by
  intro same
  have exempt := same.mpr (.inr ⟨_, List.mem_cons_self, by decide⟩)
  revert exempt
  decide

end Seaturtle.Blocker
