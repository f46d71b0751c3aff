import Seaturtle.Https.Index
import Seaturtle.Lib.Views

/-! What keeps the bytes of the index's keys alive. A rule set owns the strings of its
`hosts_` and goes with the last map entry that refers to it; the keys view the strings. -/
namespace Seaturtle.Https.Storage
open Views (assigned)

/-- Host strings and rule sets are numbered in the order they are made. -/
structure Stored where
  exactHost : Views.Map Str Nat Nat := fun _ => none
  superHost : Views.Map Str Nat Nat := fun _ => none
  /-- `hosts_` of each rule set. -/
  hosts : Nat → List Nat := fun _ => []
  nextHandle : Nat := 0
  nextRuleSet : Nat := 0

def newHost (s : Stored) (crs : Nat) : Nat × Stored :=
  (s.nextHandle, { s with
    hosts := fun i => if i = crs then s.hosts i ++ [s.nextHandle] else s.hosts i
    nextHandle := s.nextHandle + 1 })

def addHost (crs : Nat) (s : Stored) (host : Str) : Except Fatal Stored :=
  match host.idxOf? '*' with
  | some 0 =>
    if host.length < 2 then .error .outOfRange
    else
      let (super, s) := newHost s crs
      .ok { s with superHost := Views.assign s.superHost (host.drop 2) super crs }
  | some _ => .error (.skippingHost host)
  | none =>
    let (exact, s) := newHost s crs
    .ok { s with exactHost := Views.assign s.exactHost host exact crs }

variable (env : Externals)

def addRuleSet (s : Stored) (rs : RuleSet) : Except Fatal Stored := do
  let crs ← compile env rs
  if crs.empty then .error .emptyHttpsRuleset
  else rs.host.foldlM (addHost s.nextRuleSet) { s with nextRuleSet := s.nextRuleSet + 1 }

def updateRules (rl : RuleList) : Except Fatal Stored := rl.ruleSet.foldlM (addRuleSet env) {}

def Stored.entry (s : Stored) : Key → Option (Nat × Nat)
  | .exact host => s.exactHost host
  | .super name => s.superHost name

/-- The string lives as long as an entry of a map owns its rule set. -/
def Live (s : Stored) (handle : Nat) : Prop :=
  ∃ k key crs, s.entry k = some (key, crs) ∧ handle ∈ s.hosts crs

def KeysLive (s : Stored) : Prop := ∀ k key crs, s.entry k = some (key, crs) → Live s key

/-! When that is so. -/

def NamedBy (rl : RuleList) (i : Nat) (k : Key) : Prop :=
  ∃ rs, rl.ruleSet[i]? = some rs ∧ rs.names k = true

def FirstNaming (rl : RuleList) (i : Nat) (k : Key) : Prop :=
  NamedBy rl i k ∧ ∀ j, NamedBy rl j k → i ≤ j

def LastNaming (rl : RuleList) (i : Nat) (k : Key) : Prop :=
  NamedBy rl i k ∧ ∀ j, NamedBy rl j k → j ≤ i

/-- The first rule set to name a key is the last to name that key or another. -/
def FirstsKept (rl : RuleList) : Prop := ∀ i k, FirstNaming rl i k → ∃ k', LastNaming rl i k'

/-- The keys in the order they are filed, each with the number of its rule set. -/
def filings (sets : List RuleSet) : List (Key × Nat) :=
  sets.zipIdx.flatMap fun p => p.1.host.map fun host => (hostKey host, p.2)

def numbered (fs : List (Key × Nat)) : List (Views.Assignment Key Nat Nat) :=
  fs.zipIdx.map fun p => ⟨p.1.1, p.2, p.1.2⟩

structure Represents (s : Stored) (fs : List (Key × Nat)) : Prop where
  entry : ∀ k, s.entry k = Views.assignAll (numbered fs) k
  hosts : ∀ i h, h ∈ s.hosts i ↔ ∃ a ∈ numbered fs, a.handle = h ∧ a.value = i
  next : s.nextHandle = fs.length

theorem numbered_concat (fs : List (Key × Nat)) (k : Key) (crs : Nat) :
    numbered (fs ++ [(k, crs)]) = numbered fs ++ [⟨k, fs.length, crs⟩] := by
  simp [numbered, List.zipIdx_append]

theorem numbered_once (fs : List (Key × Nat)) : ((numbered fs).map (·.handle)).Nodup := by
  have handles : (numbered fs).map (·.handle) = List.range' 0 fs.length := by
    simp [numbered, Function.comp_def]
  simp [handles, List.nodup_range']

theorem numbered_filings (fs : List (Key × Nat)) :
    (numbered fs).map (fun a => (a.key, a.value)) = fs := by
  simp [numbered, Function.comp_def]

theorem filings_concat (sets : List RuleSet) (rs : RuleSet) :
    filings (sets ++ [rs]) =
      filings sets ++ rs.host.map fun host => (hostKey host, sets.length) := by
  simp [filings, List.zipIdx_append]

theorem mem_filings {sets : List RuleSet} {k : Key} {i : Nat} :
    (k, i) ∈ filings sets ↔ NamedBy ⟨sets⟩ i k := by
  simp [filings, NamedBy, RuleSet.names, List.mem_zipIdx_iff_getElem?]

theorem filings_sorted (sets : List RuleSet) : (filings sets).Pairwise fun p q => p.2 ≤ q.2 := by
  induction sets using List.reverseRecOn with
  | nil => exact .nil
  | append_singleton sets rs ih =>
    have before : ∀ p ∈ filings sets, p.2 < sets.length := by
      intro p member
      obtain ⟨rs', found, _⟩ := mem_filings.mp member
      exact (List.getElem?_eq_some_iff.mp found).1
    rw [filings_concat, List.pairwise_append]
    refine ⟨ih, ?_, fun p earlier q later => ?_⟩
    · exact List.pairwise_map.mpr (List.pairwise_of_forall fun _ _ => Nat.le_refl _)
    · obtain ⟨host, _, rfl⟩ := List.mem_map.mp later
      exact Nat.le_of_lt (before p earlier)

theorem mem_numbered {fs : List (Key × Nat)} {k : Key} {i : Nat} :
    (k, i) ∈ fs ↔ ∃ a ∈ numbered fs, a.key = k ∧ a.value = i := by
  have listed : (k, i) ∈ (numbered fs).map (fun a => (a.key, a.value)) ↔ _ := List.mem_map
  simpa only [numbered_filings, Prod.mk.injEq] using listed

theorem numbered_sorted (sets : List RuleSet) :
    (numbered (filings sets)).Pairwise fun a b => a.value ≤ b.value := by
  have sorted := filings_sorted sets
  rw [← numbered_filings (filings sets), List.pairwise_map] at sorted
  exact sorted

theorem first_naming_iff (rl : RuleList) (i : Nat) (k : Key) : FirstNaming rl i k ↔
    ∃ a, (assigned (numbered (filings rl.ruleSet)) k).head? = some a ∧ a.value = i := by
  have sorted := numbered_sorted rl.ruleSet
  constructor
  · rintro ⟨named, least⟩
    obtain ⟨b, member, rfl, rfl⟩ := mem_numbered.mp (mem_filings.mpr named)
    obtain ⟨a, first⟩ := Views.first_of_mem member
    obtain ⟨here, key⟩ := Views.mem_assigned.mp (List.mem_of_head? first)
    have bound := least a.value (mem_filings.mp (mem_numbered.mpr ⟨a, here, key, rfl⟩))
    have below := Views.first_least sorted first member rfl
    exact ⟨a, first, Nat.le_antisymm below bound⟩
  · rintro ⟨a, first, rfl⟩
    obtain ⟨here, key⟩ := Views.mem_assigned.mp (List.mem_of_head? first)
    refine ⟨mem_filings.mp (mem_numbered.mpr ⟨a, here, key, rfl⟩), fun j named => ?_⟩
    obtain ⟨b, member, key', rfl⟩ := mem_numbered.mp (mem_filings.mpr named)
    exact Views.first_least sorted first member key'

theorem last_naming_iff (rl : RuleList) (i : Nat) (k : Key) : LastNaming rl i k ↔
    ∃ a, (assigned (numbered (filings rl.ruleSet)) k).getLast? = some a ∧ a.value = i := by
  have sorted := numbered_sorted rl.ruleSet
  constructor
  · rintro ⟨named, greatest⟩
    obtain ⟨b, member, rfl, rfl⟩ := mem_numbered.mp (mem_filings.mpr named)
    obtain ⟨_, first⟩ := Views.first_of_mem member
    obtain ⟨a, last⟩ := Views.last_of_first first
    obtain ⟨here, key⟩ := Views.mem_assigned.mp (List.mem_of_getLast? last)
    have bound := greatest a.value (mem_filings.mp (mem_numbered.mpr ⟨a, here, key, rfl⟩))
    have above := Views.last_greatest sorted last member rfl
    exact ⟨a, last, Nat.le_antisymm bound above⟩
  · rintro ⟨a, last, rfl⟩
    obtain ⟨here, key⟩ := Views.mem_assigned.mp (List.mem_of_getLast? last)
    refine ⟨mem_filings.mp (mem_numbered.mpr ⟨a, here, key, rfl⟩), fun j named => ?_⟩
    obtain ⟨b, member, key', rfl⟩ := mem_numbered.mp (mem_filings.mpr named)
    exact Views.last_greatest sorted last member key'

variable {env}

theorem assignAll_concat {fs : List (Key × Nat)} (k : Key) (crs : Nat) (j : Key) :
    Views.assignAll (numbered (fs ++ [(k, crs)])) j =
      Views.assign (Views.assignAll (numbered fs)) k fs.length crs j := by
  simp [numbered_concat, Views.assignAll]

theorem newHost_hosts {s : Stored} {fs : List (Key × Nat)} (h : Represents s fs) (k : Key)
    (crs i handle : Nat) : handle ∈ (newHost s crs).2.hosts i ↔
      ∃ a ∈ numbered (fs ++ [(k, crs)]), a.handle = handle ∧ a.value = i := by
  have old := h.hosts i handle
  by_cases here : i = crs
  · simp [newHost, here, numbered_concat, or_and_right, exists_or, ← h.next, eq_comm] at old ⊢
    simp [old]
  · simp [newHost, here, numbered_concat, or_and_right, exists_or, Ne.symm here, old]

theorem addHost_represents {crs : Nat} {s s' : Stored} {fs : List (Key × Nat)} {host : Str}
    (h : Represents s fs) (added : addHost crs s host = .ok s') :
    Represents s' (fs ++ [(hostKey host, crs)]) := by
  have hosts := newHost_hosts h (hostKey host) crs
  have next : s.nextHandle + 1 = (fs ++ [(hostKey host, crs)]).length := by simp [h.next]
  unfold addHost at added
  split at added
  · next star =>
    have key : hostKey host = .super (host.drop 2) := if_pos ((idxOf?_star host).mp star)
    split at added
    · cases added
    · cases added
      refine ⟨fun j => ?_, hosts, next⟩
      have before := h.entry
      rw [assignAll_concat, key]
      cases j with
      | exact name => simp [Stored.entry, Views.assign, ← before]
      | super name => simp [Stored.entry, Views.assign, ← before, h.next]
  · cases added
  · next plain =>
    have key : hostKey host = .exact host := by
      apply if_neg
      intro star
      rw [(idxOf?_star host).mpr star] at plain
      cases plain
    cases added
    refine ⟨fun j => ?_, hosts, next⟩
    have before := h.entry
    rw [assignAll_concat, key]
    cases j with
    | exact name => simp [Stored.entry, Views.assign, ← before, h.next]
    | super name => simp [Stored.entry, Views.assign, ← before]

theorem addHost_nextRuleSet {crs : Nat} {s s' : Stored} {host : Str}
    (added : addHost crs s host = .ok s') : s'.nextRuleSet = s.nextRuleSet := by
  unfold addHost at added
  split at added
  · split at added
    · cases added
    · cases added
      rfl
  · cases added
  · cases added
    rfl

theorem addRuleSet_represents {s s' : Stored} {seen : List RuleSet} {rs : RuleSet}
    (h : Represents s (filings seen) ∧ s.nextRuleSet = seen.length)
    (added : addRuleSet env s rs = .ok s') :
    Represents s' (filings (seen ++ [rs])) ∧ s'.nextRuleSet = (seen ++ [rs]).length := by
  obtain ⟨crs, _, rest⟩ := Checked.bind_eq_ok.mp added
  split at rest
  · cases rest
  · have start : Represents { s with nextRuleSet := s.nextRuleSet + 1 } (filings seen) :=
      ⟨h.1.entry, h.1.hosts, h.1.next⟩
    have loop := Checked.foldlM_induct (fun named (t : Stored) =>
      Represents t (filings seen ++ named.map fun host => (hostKey host, s.nextRuleSet)) ∧
        t.nextRuleSet = s.nextRuleSet + 1)
      (fun named host t t' before filed => by
        have after := addHost_represents before.1 filed
        have count := addHost_nextRuleSet filed
        simp only [List.map_append, List.map_cons, List.map_nil, ← List.append_assoc]
        exact ⟨after, count.trans before.2⟩) rs.host ⟨by simpa using start, rfl⟩ rest
    rw [filings_concat, ← h.2]
    simpa [h.2] using loop

theorem updateRules_represents {rl : RuleList} {s : Stored} (built : updateRules env rl = .ok s) :
    Represents s (filings rl.ruleSet) := by
  have start : Represents {} (filings []) := by
    refine ⟨fun k => ?_, fun i h => ?_, rfl⟩
    · cases k <;> rfl
    · simp [filings, numbered]
  exact (Checked.foldlM_induct (fun seen t => Represents t (filings seen) ∧
    t.nextRuleSet = seen.length) (fun _ _ _ _ before added => addRuleSet_represents before added)
    rl.ruleSet ⟨start, rfl⟩ built).1

/-- Where `UpdateRules` returns, every key of the index views a string of a rule set that
the index still owns exactly when no rule set that first names a key has lost them all. -/
theorem index_keys_live_iff (env : Externals) (rl : RuleList) (s : Stored)
    (built : updateRules env rl = .ok s) : KeysLive s ↔ FirstsKept rl := by
  have h := updateRules_represents built
  have entry : s.entry = Views.assignAll (numbered (filings rl.ruleSet)) := funext h.entry
  have backed : KeysLive s ↔
      Views.Backed (fun crs handle => handle ∈ s.hosts crs)
        (Views.assignAll (numbered (filings rl.ruleSet))) := by
    simp only [KeysLive, Live, Views.Backed, entry]
  have firsts : FirstsKept rl ↔ Views.FirstsKept (numbered (filings rl.ruleSet)) := by
    simp only [FirstsKept, Views.FirstsKept, first_naming_iff, last_naming_iff]
    constructor
    · intro kept k a first
      exact kept a.value k ⟨a, first, rfl⟩
    · rintro kept i k ⟨a, first, rfl⟩
      exact kept k a first
  rw [backed, firsts]
  exact Views.backed_iff (numbered_once _) (fun crs handle => h.hosts crs handle)

/-! The stored index against the index by content. -/

def SameKeys (s : Stored) (hr : HttpsRewriter) : Prop :=
  ∀ k, (s.entry k).isSome = (hr.lookup k).isSome

theorem addHost_sameKeys {n : Nat} {s s' : Stored} {hr : HttpsRewriter} {host : Str}
    (crs : CompiledRuleSet) (h : SameKeys s hr) (added : addHost n s host = .ok s') :
    ∃ hr', Https.addHost crs hr host = .ok hr' ∧ SameKeys s' hr' := by
  unfold addHost at added
  split at added
  · next star =>
    split at added
    · cases added
    · next long =>
      cases added
      simp only [Https.addHost, star, long, if_false]
      refine ⟨_, rfl, fun k => ?_⟩
      have before := h k
      cases k with
      | exact name => exact before
      | super name =>
        by_cases here : name = host.drop 2
        · simp [Stored.entry, HttpsRewriter.lookup, Views.assign, HashMap.set_apply, here]
        · simpa [Stored.entry, HttpsRewriter.lookup, Views.assign, HashMap.set_apply, here]
            using before
  · cases added
  · next plain =>
    cases added
    simp only [Https.addHost, plain]
    refine ⟨_, rfl, fun k => ?_⟩
    have before := h k
    cases k with
    | exact name =>
      by_cases here : name = host
      · simp [Stored.entry, HttpsRewriter.lookup, Views.assign, HashMap.set_apply, here]
      · simpa [Stored.entry, HttpsRewriter.lookup, Views.assign, HashMap.set_apply, here]
          using before
    | super name => exact before

theorem addRuleSet_sameKeys {s s' : Stored} {hr : HttpsRewriter} {rs : RuleSet} (h : SameKeys s hr)
    (added : addRuleSet env s rs = .ok s') :
    ∃ hr', Https.addRuleSet env hr rs = .ok hr' ∧ SameKeys s' hr' := by
  obtain ⟨crs, compiles, rest⟩ := Checked.bind_eq_ok.mp added
  simp only [Https.addRuleSet, compiles, bind, Except.bind]
  split at rest
  · cases rest
  · next some =>
    simp only [some]
    have start : SameKeys { s with nextRuleSet := s.nextRuleSet + 1 } hr := h
    refine Checked.foldlM_matched SameKeys ?_ start rest
    intro t hr host t' same filed
    exact addHost_sameKeys crs same filed

/-- The stored index has just the keys that `MaybeRewrite` looks up. -/
theorem updateRules_sameKeys {rl : RuleList} {s : Stored} (built : updateRules env rl = .ok s) :
    ∃ hr, Https.updateRules env rl = .ok hr ∧ SameKeys s hr := by
  have start : SameKeys {} {} := fun k => by cases k <;> rfl
  refine Checked.foldlM_matched SameKeys ?_ start built
  intro t hr rs t' same added
  exact addRuleSet_sameKeys same added

def upgrade : List Rule := [⟨"http:".toList, "https:".toList⟩]

/-- The first rule set shares one host with the second and keeps another for itself. -/
def ownHostLeft : RuleList :=
  ⟨[⟨["a.com".toList, "b.com".toList], upgrade⟩, ⟨["a.com".toList], upgrade⟩]⟩

theorem index_keys_live_iff_own_host_left :
    ∃ s, updateRules literal ownHostLeft = .ok s ∧ (KeysLive s ↔ FirstsKept ownHostLeft) :=
  ⟨_, rfl, index_keys_live_iff literal ownHostLeft _ rfl⟩

/-- Both rule sets name one host, and the key views the string of the first. -/
def sharedHost : RuleList := ⟨[⟨["a.com".toList], upgrade⟩, ⟨["a.com".toList], upgrade⟩]⟩

theorem shared_host_dangles : ∃ s, updateRules literal sharedHost = .ok s ∧ ¬ KeysLive s := by
  refine ⟨_, rfl, fun live => ?_⟩
  obtain ⟨k, key, crs, entry, owned⟩ := live (.exact "a.com".toList) 0 1 rfl
  have last : crs = 1 := by
    cases k with
    | exact host =>
      simp only [Stored.entry, Views.assign] at entry
      split at entry
      · cases entry
        rfl
      · cases entry
    | super name => cases entry
  subst last
  have first : 0 ∉ [1] := by decide
  exact first owned

end Seaturtle.Https.Storage
