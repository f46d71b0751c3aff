import Seaturtle.Block.Blocker
import Seaturtle.Lib.Views

/-! What keeps the bytes of the blacklist's keys alive. A string made by `new` is
numbered by a handle; a key views one, and the `linked_ptr` it is mapped to owns one. -/
namespace Seaturtle.BlacklistStorage
open Views (assigned)

structure Stored where
  domainBlacklist : Views.Map Str Nat Nat := fun _ => none
  nextHandle : Nat := 0

def addRule (s : Stored) (rule : Blocking.Rule) : Stored :=
  if rule.blockThirdParty then
    let host := s.nextHandle
    { domainBlacklist := Views.assign s.domainBlacklist rule.domain host host
      nextHandle := host + 1 }
  else s

def updateRulesForBrowserProcess (s : Stored) (rl : Blocking.RuleList) : Stored :=
  rl.rule.foldl addRule { s with domainBlacklist := fun _ => none }

/-- The string lives as long as some entry's `linked_ptr` is an owner of it. -/
def Live (s : Stored) (handle : Nat) : Prop :=
  ∃ domain key, s.domainBlacklist domain = some (key, handle)

def KeysLive (s : Stored) : Prop :=
  ∀ domain key host, s.domainBlacklist domain = some (key, host) → Live s key

def thirdParties (rl : Blocking.RuleList) : List Str :=
  (rl.rule.filter (·.blockThirdParty)).map (·.domain)

/-- The strings are made, and filed, in the order of the rules. -/
def filed (first : Nat) : List Str → List (Views.Assignment Str Nat Nat)
  | [] => []
  | domain :: domains => ⟨domain, first, first⟩ :: filed (first + 1) domains

theorem filed_keys (first : Nat) (domains : List Str) :
    (filed first domains).map (·.key) = domains := by
  induction domains generalizing first with
  | nil => rfl
  | cons domain domains ih => simp [filed, ih]

theorem filed_value {first : Nat} {domains : List Str} {a : Views.Assignment Str Nat Nat}
    (member : a ∈ filed first domains) : a.value = a.handle ∧ first ≤ a.handle := by
  induction domains generalizing first with
  | nil => cases member
  | cons domain domains ih =>
    rcases List.mem_cons.mp member with rfl | later
    · exact ⟨rfl, Nat.le_refl _⟩
    · have h := ih later
      omega

theorem filed_once (first : Nat) (domains : List Str) :
    ((filed first domains).map (·.handle)).Nodup := by
  induction domains generalizing first with
  | nil => exact List.nodup_nil
  | cons domain domains ih =>
    have fresh : first ∉ (filed (first + 1) domains).map (·.handle) := by
      intro again
      obtain ⟨a, member, same⟩ := List.mem_map.mp again
      have later := (filed_value member).2
      omega
    exact List.nodup_cons.mpr ⟨fresh, ih (first + 1)⟩

theorem filed_values (first : Nat) (domains : List Str) :
    (filed first domains).map (·.value) = (filed first domains).map (·.handle) :=
  List.map_congr_left fun _ member => (filed_value member).1

theorem foldl_addRule (rules : List Blocking.Rule) (s : Stored) :
    (rules.foldl addRule s).domainBlacklist =
      (filed s.nextHandle (thirdParties ⟨rules⟩)).foldl
        (fun m a => Views.assign m a.key a.handle a.value) s.domainBlacklist := by
  induction rules generalizing s with
  | nil => rfl
  | cons rule rules ih =>
    cases third : rule.blockThirdParty with
    | false =>
      have skipped : addRule s rule = s := by simp [addRule, third]
      simp [skipped, ih, thirdParties, third]
    | true =>
      have added : addRule s rule =
          ⟨Views.assign s.domainBlacklist rule.domain s.nextHandle s.nextHandle,
            s.nextHandle + 1⟩ := by
        simp [addRule, third]
      simp [added, ih, thirdParties, third, filed]

theorem updateRules_assigned (s : Stored) (rl : Blocking.RuleList) :
    (updateRulesForBrowserProcess s rl).domainBlacklist =
      Views.assignAll (filed s.nextHandle (thirdParties rl)) := foldl_addRule rl.rule _

theorem keysLive_updateRules_iff (s : Stored) (rl : Blocking.RuleList) :
    KeysLive (updateRulesForBrowserProcess s rl) ↔ (thirdParties rl).Nodup := by
  have backed : KeysLive (updateRulesForBrowserProcess s rl) ↔
      Views.Backed
        (fun v h : Nat => v = h ∧ v ∈ (filed s.nextHandle (thirdParties rl)).map (·.value))
        (Views.assignAll (filed s.nextHandle (thirdParties rl))) := by
    simp only [KeysLive, Live, Views.Backed, updateRules_assigned]
    constructor
    · intro live k h v entry
      obtain ⟨j, g, owner⟩ := live k h v entry
      obtain ⟨_, b, _, last, _, rfl⟩ := Views.assignAll_eq_some.mp owner
      have member := (Views.mem_assigned.mp (List.mem_of_getLast? last)).1
      exact ⟨j, g, b.value, owner, rfl, List.mem_map_of_mem member⟩
    · intro backed k h v entry
      obtain ⟨j, g, w, owner, rfl, _⟩ := backed k h v entry
      exact ⟨j, g, owner⟩
  have once := filed_once s.nextHandle (thirdParties rl)
  rw [backed, Views.backed_iff once, Views.firstsKept_iff, filed_keys]
  · exact filed_values _ _ ▸ once
  · intro v h
    constructor
    · rintro ⟨rfl, member⟩
      obtain ⟨a, here, same⟩ := List.mem_map.mp member
      exact ⟨a, here, (filed_value here).1.symm.trans same, same⟩
    · rintro ⟨a, here, rfl, rfl⟩
      exact ⟨(filed_value here).1, List.mem_map_of_mem here⟩

/-- After any calls, every key of the blacklist views a string that an entry keeps exactly
when the last list names no third party twice. -/
theorem blacklist_keys_live_iff (lists : List Blocking.RuleList) :
    KeysLive (lists.foldl updateRulesForBrowserProcess {}) ↔
      ∀ rl ∈ lists.getLast?, (thirdParties rl).Nodup := by
  induction lists using List.reverseRecOn with
  | nil =>
    have none : KeysLive {} := fun _ _ _ impossible => nomatch impossible
    simp [none]
  | append_singleton lists rl =>
    simp [keysLive_updateRules_iff]

theorem stored_domains (b : Blocker) (s : Stored) (rl : Blocking.RuleList) (domain : Str) :
    ((updateRulesForBrowserProcess s rl).domainBlacklist domain).isSome =
      (b.updateRulesForBrowserProcess rl).isHostEvilThirdParty domain := by
  have loop (rules : List Blocking.Rule) (s : Stored) (blacklist : HashMap Str Str)
      (same : ∀ d, (s.domainBlacklist d).isSome = (blacklist d).isSome) (d : Str) :
      ((rules.foldl addRule s).domainBlacklist d).isSome =
        (rules.foldl Blocker.addRule blacklist d).isSome := by
    induction rules generalizing s blacklist with
    | nil => exact same d
    | cons rule rules ih =>
      apply ih
      intro j
      cases third : rule.blockThirdParty with
      | false => simp [addRule, Blocker.addRule, third, same]
      | true =>
        by_cases here : j = rule.domain
        · simp [addRule, Blocker.addRule, third, Views.assign, HashMap.set_apply, here]
        · simp [addRule, Blocker.addRule, third, Views.assign, HashMap.set_apply, here, same]
  exact loop rl.rule _ .empty (fun _ => rfl) domain

def namedTwice : Blocking.RuleList :=
  ⟨[{ domain := "ads.com".toList, blockThirdParty := true },
    { domain := "ads.com".toList, blockThirdParty := true }]⟩

/-- The second rule's string takes the place of the first, which the key still views. -/
theorem duplicate_rule_dangles :
    ¬ KeysLive ([namedTwice].foldl updateRulesForBrowserProcess {}) := by
  intro live
  have distinct : (thirdParties namedTwice).Nodup :=
    (keysLive_updateRules_iff {} namedTwice).mp live
  revert distinct
  decide

end Seaturtle.BlacklistStorage
