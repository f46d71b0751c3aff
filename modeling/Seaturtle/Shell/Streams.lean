import Seaturtle.Shell.Reentry

/-! What Java hears about each native address. It is the life of one shell after the other: each
is launched, its updates come, and it is hidden and cleaned up. -/
namespace Seaturtle.ReentryRuns

/-! The stages of the addresses, by the shells that are registered and the calls that Java is
inside of. -/

def stageOf (calls : List Call) (shell : Nat) : Stage :=
  if .cleanup shell ∈ calls then .leaving else if .hide shell ∈ calls then .hidden else .opened

def stageAt (native : Nat → Nat) (s : State) (address : Nat) : Stage :=
  ((s.shells.find? (native · == address)).map (stageOf s.calls)).getD .absent

variable {native : Nat → Nat} {s s' : State} {address : Nat}

theorem stageOf_ne_absent (calls : List Call) (shell : Nat) : stageOf calls shell ≠ .absent := by
  unfold stageOf
  split
  · nofun
  · split <;> nofun

theorem stageAt_here (distinct : Distinct native s) {shell : Nat} (listed : shell ∈ s.shells) :
    stageAt native s (native shell) = stageOf s.calls shell := by
  unfold stageAt
  cases found : s.shells.find? (native · == native shell) with
  | none => simpa using List.find?_eq_none.mp found shell listed
  | some other =>
    have same : native other = native shell := by simpa using List.find?_some found
    rw [List.inj_on_of_nodup_map distinct (List.mem_of_find?_eq_some found) listed same]
    rfl

theorem stageAt_none (none : ∀ shell ∈ s.shells, native shell ≠ address) :
    stageAt native s address = .absent := by
  have missing : s.shells.find? (native · == address) = Option.none :=
    List.find?_eq_none.mpr fun shell listed => by simpa using none shell listed
  rw [stageAt, missing]
  rfl

theorem stageAt_ne_absent_iff :
    stageAt native s address ≠ .absent ↔ ∃ shell ∈ s.shells, native shell = address := by
  constructor
  · intro known
    by_contra nowhere
    exact known (stageAt_none fun shell listed same => nowhere ⟨shell, listed, same⟩)
  · rintro ⟨shell, listed, same⟩
    unfold stageAt
    cases found : s.shells.find? (native · == address) with
    | none => simpa [same] using List.find?_eq_none.mp found shell listed
    | some other => exact stageOf_ne_absent _ _

theorem stageAt_kept
    (finds : s'.shells.find? (native · == address) = s.shells.find? (native · == address))
    (calls : ∀ shell, native shell = address → stageOf s'.calls shell = stageOf s.calls shell) :
    stageAt native s' address = stageAt native s address := by
  unfold stageAt
  rw [finds]
  cases found : s.shells.find? (native · == address) with
  | none => rfl
  | some shell => exact calls shell (by simpa using List.find?_some found)

theorem find?_erase {p : Nat → Bool} {shell : Nat} (shells : List Nat) (other : p shell = false) :
    (shells.erase shell).find? p = shells.find? p := by
  induction shells with
  | nil => rfl
  | cons first shells ih =>
    by_cases here : first = shell
    · subst here
      rw [List.erase_cons_head, List.find?_cons_of_neg (by simp [other])]
    · rw [List.erase_cons_tail (by simpa using here), List.find?_cons, List.find?_cons, ih]

theorem moves_stageOf {shells : List Nat} {calls calls' : List Call}
    (moves : Moves shells calls calls') (shell : Nat) :
    stageOf calls' shell = stageOf calls shell := by
  have unclosing {call : Call} (other : call.closes = false) (rest : List Call) :
      stageOf (call :: rest) shell = stageOf rest shell := by
    cases call with
    | hide shell => cases other
    | cleanup shell => cases other
    | launchPopup opener => simp [stageOf]
    | updateVisibleUrl shell => simp [stageOf]
  cases moves with
  | stays => rfl
  | enters other _ => exact unclosing other calls
  | leaves first other _ => rw [first, unclosing other calls']

/-- A call about a shell at another address. -/
theorem stageOf_away {calls : List Call} {call : Call} {shell other : Nat}
    (away : native shell ≠ address) (at_ : native other = address) (about : call.shell = shell) :
    stageOf (call :: calls) other = stageOf calls other := by
  have cleanup : Call.cleanup other ≠ call := by
    rintro rfl
    exact away (about ▸ at_)
  have hide : Call.hide other ≠ call := by
    rintro rfl
    exact away (about ▸ at_)
  simp [stageOf, cleanup, hide]

/-! Reading what Java has heard. -/

theorem seen_append (heard more : List Heard) :
    seen native (heard ++ more) address = (seen native heard address).bind fun stage =>
      Runs.run Stage.advance stage (noticesAt native address more) := by
  rw [seen, noticesAt, List.filterMap_append, Runs.run_append]
  rfl

theorem seen_one {heard : List Heard} {h : Heard} {shell : Nat} {n : Notice}
    (about : h.notice = some (shell, n)) :
    seen native (heard ++ [h]) address = (seen native heard address).bind fun stage =>
      if native shell = address then stage.advance n else some stage := by
  rw [seen_append]
  congr 1
  funext stage
  by_cases here : native shell = address
  · simp [noticesAt, about, here]
  · simp [noticesAt, about, here]

theorem run_updates {stage : Stage} (known : stage ≠ .absent) {notices : List Notice}
    (only : ∀ n ∈ notices, n = .update) :
    Runs.run Stage.advance stage notices = some stage := by
  induction notices with
  | nil => rfl
  | cons n notices ih =>
    have again : stage.advance .update = some stage := by
      cases stage with
      | absent => exact absurd rfl known
      | _ => rfl
    rw [only n List.mem_cons_self, Runs.run_cons, again]
    exact ih fun n member => only n (List.mem_cons_of_mem _ member)

theorem mem_noticesAt {n : Notice} {messages : List Message}
    (member : n ∈ noticesAt native address (messages.map .message)) :
    ∃ m ∈ messages, ∃ shell, notice m = some (shell, n) ∧ native shell = address := by
  simp only [noticesAt, List.mem_filterMap, List.mem_map] at member
  obtain ⟨_, ⟨m, inside, rfl⟩, told⟩ := member
  obtain ⟨⟨shell, n'⟩, said, here⟩ := Option.bind_eq_some_iff.mp told
  simp only [Option.ite_none_right_eq_some, Option.some.injEq] at here
  obtain ⟨same, rfl⟩ := here
  exact ⟨m, inside, shell, said, same⟩

/-- Updates are welcome at each address where a shell is registered. -/
theorem run_only_updates {messages : List Message} (only : Updates s.shells messages) :
    Runs.run Stage.advance (stageAt native s address)
        (noticesAt native address (messages.map .message)) =
      some (stageAt native s address) := by
  by_cases known : stageAt native s address = .absent
  · have none : noticesAt native address (messages.map .message) = [] := by
      apply List.eq_nil_iff_forall_not_mem.mpr
      intro n member
      obtain ⟨m, inside, shell, told, same⟩ := mem_noticesAt member
      exact stageAt_ne_absent_iff.mpr ⟨shell, (only m inside shell n told).2, same⟩ known
    rw [none]
    rfl
  · apply run_updates known
    intro n member
    obtain ⟨m, inside, shell, told, _⟩ := mem_noticesAt member
    exact (only m inside shell n told).1

/-! Runs in which no shell is closed while Java is inside a call about it. -/

/-- No call waits for the return of one by which its own shell is closed. -/
def Alone (calls : List Call) : Prop :=
  calls.Pairwise fun inner outer => inner.closes = true → outer.shell ≠ inner.shell

structure Nested (native : Nat → Nat) (s : State) : Prop where
  runs : s.dangling = false
  called : ∀ call ∈ s.calls, call.shell ∈ s.shells
  alone : Alone s.calls
  staged : ∀ address, seen native s.heard address = some (stageAt native s address)

theorem moves_called {shells : List Nat} {calls calls' : List Call}
    (moves : Moves shells calls calls') (h : ∀ call ∈ calls, call.shell ∈ shells) :
    ∀ call ∈ calls', call.shell ∈ shells := by
  cases moves with
  | stays => exact h
  | enters _ listed => exact List.forall_mem_cons.mpr ⟨listed, h⟩
  | leaves first _ _ =>
    subst first
    exact (List.forall_mem_cons.mp h).2

theorem moves_alone {shells : List Nat} {calls calls' : List Call}
    (moves : Moves shells calls calls') : Alone calls' ↔ Alone calls := by
  have unclosing {call : Call} (other : call.closes = false) (rest : List Call) :
      Alone (call :: rest) ↔ Alone rest := by
    rw [Alone, List.pairwise_cons]
    exact and_iff_right fun outer _ closes => by simp [other] at closes
  cases moves with
  | stays => exact Iff.rfl
  | enters other _ => exact unclosing other calls
  | leaves first other _ =>
    subst first
    exact (unclosing other calls').symm

theorem updates_nested {messages : List Message} (h : Nested native s)
    (shells : s'.shells = s.shells) (calls : Moves s.shells s.calls s'.calls)
    (heard : s'.heard = s.heard ++ messages.map .message) (only : Updates s.shells messages)
    (runs : s'.dangling = false) : Nested native s' := by
  constructor
  · exact runs
  · rw [shells]
    exact moves_called calls h.called
  · exact (moves_alone calls).mpr h.alone
  · intro address
    rw [heard, seen_append, h.staged,
      stageAt_kept (by rw [shells]) fun shell _ => moves_stageOf calls shell]
    exact run_only_updates only

/-- A notice takes its address a stage on, where the other addresses stay as they are. -/
theorem notice_staged {x : Heard} {shell : Nat} {n : Notice} (h : Nested native s)
    (about : x.notice = some (shell, n)) (heard : s'.heard = s.heard ++ [x])
    (here : (stageAt native s (native shell)).advance n = some (stageAt native s' (native shell)))
    (elsewhere : ∀ address, native shell ≠ address →
      stageAt native s' address = stageAt native s address) (address : Nat) :
    seen native s'.heard address = some (stageAt native s' address) := by
  rw [heard, seen_one about, h.staged, Option.bind_some]
  by_cases own : native shell = address
  · subst own
    rw [if_pos rfl, here]
  · rw [if_neg own, elsewhere address own]

theorem opens_nested {new contents : Nat} (h : Nested native s) (distinct' : Distinct native s')
    (shells : s'.shells = s.shells ++ [new]) (calls : Moves s.shells s.calls s'.calls)
    (heard : s'.heard = s.heard ++ [.message (.registry (.launchShellResponse new contents))])
    (runs : s'.dangling = false) : Nested native s' := by
  have called := moves_called calls h.called
  have free : ∀ shell ∈ s.shells, native shell ≠ native new := by
    intro shell listed
    rw [Distinct, shells, List.map_append, List.nodup_append] at distinct'
    exact distinct'.2.2 _ (List.mem_map_of_mem listed) _ (by simp)
  constructor
  · exact runs
  · intro call member
    rw [shells]
    exact List.mem_append_left _ (called call member)
  · exact (moves_alone calls).mpr h.alone
  · apply notice_staged h rfl heard
    · have listed : new ∈ s'.shells := by simp [shells]
      have fresh (call : Call) (about : call.shell = new) : call ∉ s'.calls := fun member =>
        free new (about ▸ called call member) rfl
      have opened : stageOf s'.calls new = .opened := by
        rw [stageOf, if_neg (fresh (.cleanup new) rfl), if_neg (fresh (.hide new) rfl)]
      rw [stageAt_none free, stageAt_here distinct' listed, opened]
      rfl
    · intro address other
      have finds : s'.shells.find? (native · == address) =
          s.shells.find? (native · == address) := by
        rw [shells, List.find?_append]
        simp [other]
      exact stageAt_kept finds fun shell _ => moves_stageOf calls shell

theorem hides_nested {shell : Nat} (h : Nested native s) (distinct : Distinct native s)
    (listed : shell ∈ s.shells) (shells : s'.shells = s.shells)
    (calls : s'.calls = .hide shell :: s.calls) (idle : ∀ call ∈ s.calls, call.shell ≠ shell)
    (heard : s'.heard = s.heard ++ [.message (.registry (.shellCommand shell .hide))])
    (runs : s'.dangling = false) : Nested native s' := by
  have distinct' : Distinct native s' := by rwa [Distinct, shells]
  constructor
  · exact runs
  · rw [calls, shells]
    exact List.forall_mem_cons.mpr ⟨listed, h.called⟩
  · rw [calls]
    exact List.pairwise_cons.mpr ⟨fun outer member _ => idle outer member, h.alone⟩
  · apply notice_staged h rfl heard
    · have quiet (call : Call) (about : call.shell = shell) : call ∉ s.calls := fun member =>
        idle call member about
      have before : stageOf s.calls shell = .opened := by
        rw [stageOf, if_neg (quiet (.cleanup shell) rfl), if_neg (quiet (.hide shell) rfl)]
      have after : stageOf s'.calls shell = .hidden := by
        simp [stageOf, calls, quiet (.cleanup shell) rfl]
      rw [stageAt_here distinct listed, before, stageAt_here distinct' (shells ▸ listed), after]
      rfl
    · intro address away
      apply stageAt_kept (by rw [shells])
      intro other at_
      rw [calls, stageOf_away away at_ rfl]

theorem cleansUp_nested {shell : Nat} {rest : List Call} (h : Nested native s)
    (distinct : Distinct native s) (listed : shell ∈ s.shells)
    (first : s.calls = .hide shell :: rest) (shells : s'.shells = s.shells)
    (calls : s'.calls = .cleanup shell :: rest)
    (heard : s'.heard = s.heard ++ [.message (.registry (.shellCommand shell .cleanup))])
    (runs : s'.dangling = false) : Nested native s' := by
  have distinct' : Distinct native s' := by rwa [Distinct, shells]
  have called := h.called
  have alone := h.alone
  rw [first] at called alone
  obtain ⟨others, tail⟩ := List.pairwise_cons.mp alone
  constructor
  · exact runs
  · rw [calls, shells]
    exact List.forall_mem_cons.mpr ⟨listed, (List.forall_mem_cons.mp called).2⟩
  · rw [calls]
    exact List.pairwise_cons.mpr ⟨others, tail⟩
  · apply notice_staged h rfl heard
    · have once : Call.cleanup shell ∉ rest := fun member => others _ member rfl rfl
      have before : stageOf s.calls shell = .hidden := by simp [stageOf, first, once]
      have after : stageOf s'.calls shell = .leaving := by simp [stageOf, calls]
      rw [stageAt_here distinct listed, before, stageAt_here distinct' (shells ▸ listed), after]
      rfl
    · intro address away
      apply stageAt_kept (by rw [shells])
      intro other at_
      rw [calls, first, stageOf_away away at_ rfl, stageOf_away away at_ rfl]

theorem removes_nested {shell : Nat} {rest : List Call} (h : Nested native s)
    (distinct : Distinct native s) (listed : shell ∈ s.shells)
    (first : s.calls = .cleanup shell :: rest) (shells : s'.shells = s.shells.erase shell)
    (calls : s'.calls = rest) (heard : s'.heard = s.heard ++ [.released shell])
    (runs : s'.dangling = false) : Nested native s' := by
  have called := h.called
  have alone := h.alone
  rw [first] at called alone
  obtain ⟨others, tail⟩ := List.pairwise_cons.mp alone
  constructor
  · exact runs
  · intro call member
    rw [calls] at member
    have apart : call.shell ≠ shell := others call member rfl
    rw [shells, List.mem_erase_of_ne apart]
    exact called call (List.mem_cons_of_mem _ member)
  · rwa [calls]
  · apply notice_staged h rfl heard
    · have before : stageOf s.calls shell = .leaving := by simp [stageOf, first]
      have gone : ∀ other ∈ s'.shells, native other ≠ native shell := by
        intro other member same
        have once : s.shells.Nodup := List.Nodup.of_map native distinct
        rw [shells, once.mem_erase_iff] at member
        exact member.1 (List.inj_on_of_nodup_map distinct member.2 listed same)
      rw [stageAt_here distinct listed, before, stageAt_none gone]
      rfl
    · intro address away
      have finds : s'.shells.find? (native · == address) =
          s.shells.find? (native · == address) := by
        rw [shells]
        exact find?_erase s.shells (by simpa using away)
      apply stageAt_kept finds
      intro other at_
      rw [calls, first, stageOf_away away at_ rfl]

theorem effect_nested {e : Event} (h : Nested native s) (distinct : Distinct native s)
    (distinct' : Distinct native s') (outside : ClosesOutside native s e)
    (effect : Effect native s e s') : Nested native s' := by
  cases effect with
  | updates shells next calls heard only runs closes =>
    exact updates_nested h shells calls heard only runs
  | opens shells above below calls heard runs closes =>
    exact opens_nested h distinct' shells calls heard runs
  | hides listed shells next calls heard runs closes =>
    apply hides_nested h distinct listed shells calls _ heard runs
    rintro call member rfl
    exact outside _ closes call member rfl
  | cleansUp listed first shells next calls heard runs returns =>
    exact cleansUp_nested h distinct listed first shells calls heard runs
  | removes listed first shells next calls heard runs returns =>
    exact removes_nested h distinct listed first shells calls heard runs
  | dangles first gone dangling returns =>
    exact absurd (h.called _ (first ▸ List.mem_cons_self)) gone

theorem initial_nested (blocker : Blocker) (httpsRewriter : Https.HttpsRewriter)
    (settings : AllSettings) : Nested native (initial blocker httpsRewriter settings) :=
  ⟨rfl, fun _ none => (List.not_mem_nil none).elim, List.Pairwise.nil, fun _ => rfl⟩

/-- Addresses that are given out again. -/
def fewAddresses (ptr : Nat) : Nat := ptr % 4

/-- Java reads the log of a popup before it has been told the whole of it, closes the first shell,
which it still asks while that is hidden, and gets a new shell at the same address. -/
def reusingRun : List Event :=
  [.process (.attribution (.shells (.launchShell 0))),
    .process (.page 1 (.loadingStateChanged true)),
    .process (.attribution (.shells (.addNewContents 1))), .process (.shellCommand 3 .getLog),
    .returns, .process (.shellCommand 1 .close), .process (.shellCommand 1 .getParent), .returns,
    .returns, .process (.attribution (.shells (.launchShell 0)))]

end Seaturtle.ReentryRuns
