import Seaturtle.Shell.Streams

/-! Which of Java's commands the process survives, from inside its calls or not. -/
namespace Seaturtle.ReentryRuns

variable {native : Nat → Nat} {s s' : State}

/-- Java gives a command that there is to an address that it takes for a shell's. -/
def ToKnownShell (native : Nat → Nat) (s : State) : Event → Prop
  | .process (.shellCommand nativeShell command) =>
    (∃ stage, seen native s.heard nativeShell = some stage ∧ stage ≠ .absent) ∧
      ∀ n, command ≠ .unknown n
  | _ => True

/-- Shells are numbered as they are made. -/
structure Numbered (s : State) : Prop where
  once : s.shells.Nodup
  below : ∀ shell ∈ s.shells, shell < s.browser.nextPtr

theorem effect_numbered {e : Event} (h : Numbered s) (effect : Effect native s e s')
    (running : s'.dangling = false) : Numbered s' := by
  have kept (shells : s'.shells = s.shells) (next : s.browser.nextPtr ≤ s'.browser.nextPtr) :
      Numbered s' := by
    constructor
    · rw [shells]
      exact h.once
    · rw [shells]
      exact fun shell listed => Nat.lt_of_lt_of_le (h.below shell listed) next
  cases effect with
  | updates shells next _ _ _ _ _ => exact kept shells next
  | opens shells above below _ _ _ _ =>
    constructor
    · rw [shells, ← List.concat_eq_append]
      exact h.once.concat fun listed => Nat.not_le_of_lt (h.below _ listed) above
    · rw [shells]
      intro shell listed
      rcases List.mem_append.mp listed with old | new
      · exact Nat.lt_trans (Nat.lt_of_lt_of_le (h.below shell old) above) below
      · cases List.mem_singleton.mp new
        exact below
  | hides _ shells next _ _ _ _ => exact kept shells next
  | cleansUp _ _ shells next _ _ _ _ => exact kept shells next
  | removes _ _ shells next _ _ _ _ =>
    constructor
    · rw [shells]
      exact h.once.erase _
    · rw [shells]
      exact fun shell listed =>
        Nat.lt_of_lt_of_le (h.below shell (List.mem_of_mem_erase listed)) next
  | dangles _ _ dangling _ =>
    rw [dangling] at running
    cases running

/-- Some call is going to return to a shell that is gone by then. -/
structure Doomed (s : State) : Prop where
  numbered : Numbered s
  waits : ¬ Alone s.calls ∨ ∃ call ∈ s.calls, call.shell ∉ s.shells ∧ call.shell < s.browser.nextPtr

theorem moves_waits {shells : List Nat} {calls calls' : List Call} {next : Nat}
    (moves : Moves shells calls calls')
    (waits : ¬ Alone calls ∨ ∃ call ∈ calls, call.shell ∉ shells ∧ call.shell < next) :
    ¬ Alone calls' ∨ ∃ call ∈ calls', call.shell ∉ shells ∧ call.shell < next := by
  rcases waits with crowded | ⟨call, member, gone⟩
  · exact .inl fun alone => crowded ((moves_alone moves).mp alone)
  · right
    cases moves with
    | stays => exact ⟨call, member, gone⟩
    | enters _ _ => exact ⟨call, List.mem_cons_of_mem _ member, gone⟩
    | leaves first _ listed =>
      rw [first] at member
      rcases List.mem_cons.mp member with rfl | later
      · exact absurd listed gone.1
      · exact ⟨call, later, gone⟩

theorem effect_doomed {e : Event} (h : Doomed s) (effect : Effect native s e s') :
    s'.dangling = true ∨ Doomed s' := by
  cases running : s'.dangling with
  | true => exact .inl rfl
  | false =>
    refine .inr ⟨effect_numbered h.numbered effect running, ?_⟩
    cases effect with
    | updates shells next calls _ _ _ _ =>
      rw [shells]
      rcases moves_waits calls h.waits with crowded | ⟨call, member, gone, below⟩
      · exact .inl crowded
      · exact .inr ⟨call, member, gone, Nat.lt_of_lt_of_le below next⟩
    | opens shells above below calls _ _ _ =>
      rcases moves_waits calls h.waits with crowded | ⟨call, member, gone, old⟩
      · exact .inl crowded
      · refine .inr ⟨call, member, ?_, by omega⟩
        rw [shells, List.mem_append, List.mem_singleton, not_or]
        exact ⟨gone, by omega⟩
    | hides _ shells next calls _ _ _ =>
      rw [shells, calls]
      rcases h.waits with crowded | ⟨call, member, gone, below⟩
      · exact .inl fun alone => crowded (List.pairwise_cons.mp alone).2
      · exact .inr ⟨call, List.mem_cons_of_mem _ member, gone, Nat.lt_of_lt_of_le below next⟩
    | cleansUp listed first shells next calls _ _ _ =>
      have waits := h.waits
      rw [first] at waits
      rw [shells, calls]
      rcases waits with crowded | ⟨call, member, gone, below⟩
      · exact .inl fun alone => crowded (List.pairwise_cons.mpr (List.pairwise_cons.mp alone))
      · rcases List.mem_cons.mp member with rfl | later
        · exact absurd listed gone
        · exact .inr ⟨call, List.mem_cons_of_mem _ later, gone, Nat.lt_of_lt_of_le below next⟩
    | @removes shell rest listed first shells next calls _ _ _ =>
      have waits := h.waits
      rw [first] at waits
      rw [shells, calls]
      rcases waits with crowded | ⟨call, member, gone, below⟩
      · by_cases waiting : ∃ outer ∈ rest, outer.shell = shell
        · obtain ⟨outer, member, same⟩ := waiting
          refine .inr ⟨outer, member, ?_, ?_⟩
          · rw [same]
            exact h.numbered.once.not_mem_erase
          · rw [same]
            exact Nat.lt_of_lt_of_le (h.numbered.below shell listed) next
        · refine .inl fun alone => crowded (List.pairwise_cons.mpr ⟨?_, alone⟩)
          exact fun outer member _ same => waiting ⟨outer, member, same⟩
      · rcases List.mem_cons.mp member with rfl | later
        · exact absurd listed gone
        · exact .inr ⟨call, later, fun stays => gone (List.mem_of_mem_erase stays),
            Nat.lt_of_lt_of_le below next⟩
    | dangles _ _ dangling _ =>
      rw [dangling] at running
      cases running

section
variable {env : Https.Externals} {policy : Gurl → Gurl → Bool} {pageEnv : PageExternals}

theorem respond_fatal (p : BridgeRuns.State) (response : Option ShellCommandResponse) :
    (p.respond response).fatal = p.fatal := by cases response <;> rfl

theorem process_dispatch_fatal {p : BridgeRuns.State} (alive : p.fatal = none) {shell : Nat}
    (listed : shell ∈ p.browser.allShells.map (·.ptr)) (command : JavaCommand) :
    (p.dispatchShellCommand pageEnv shell command).fatal = none ↔
      ∀ n, command ≠ .unknown n := by
  obtain ⟨sh, found⟩ := ShellRuns.forPtr_some_iff.mpr listed
  have followed (p : BridgeRuns.State) (a : AttributionRuns.State) :
      (p.follow a).fatal = p.fatal := rfl
  have paged (page : Page) : (p.setPage sh.ptr page).fatal = none := alive
  unfold BridgeRuns.State.dispatchShellCommand
  cases command with
  | unknown n => simp [found, Shell.handleShellCommand]
  | _ => simp [found, Shell.handleShellCommand, respond_fatal, followed, paged]

theorem pageEvent_fatal (p : BridgeRuns.State) (sh : Shell) (e : BridgeRuns.PageEvent) :
    (p.pageEvent sh e).fatal = p.fatal := by
  cases e with
  | didNavigateMainFrame different url => cases different <;> rfl
  | didFinishLoad isMainFrame validatedUrl => cases isMainFrame <;> rfl
  | toggleFullscreenModeForTab enterFullscreen => cases enterFullscreen <;> rfl
  | _ => rfl

theorem start_fatal {e : BridgeRuns.Event}
    (other : ∀ nativeShell command, e ≠ .shellCommand nativeShell command)
    (taken : start env policy pageEnv native s e = some s') :
    s'.process.fatal = s.process.fatal := by
  have single (taken : (BridgeRuns.step env policy pageEnv s.process e).map s.goOn = some s') :
      s'.process.fatal = s.process.fatal := by
    obtain ⟨p, stepped, rfl⟩ := Option.map_eq_some_iff.mp taken
    change p.fatal = s.process.fatal
    unfold BridgeRuns.step at stepped
    split at stepped
    · cases stepped
    · cases e with
      | attribution e =>
        obtain ⟨a, _, rfl⟩ := Option.map_eq_some_iff.mp stepped
        rfl
      | shellCommand nativeShell command => exact absurd rfl (other nativeShell command)
      | page shell e =>
        simp only [Option.ite_none_left_eq_some, Option.map_eq_some_iff] at stepped
        obtain ⟨_, sh, _, rfl⟩ := stepped
        exact pageEvent_fatal s.process sh e
  unfold start at taken
  split at taken
  · obtain ⟨sh, _, rfl⟩ := Option.map_eq_some_iff.mp taken
    rfl
  · obtain ⟨sh, _, rfl⟩ := Option.map_eq_some_iff.mp taken
    rfl
  · next shell different url =>
    obtain ⟨sh, _, rfl⟩ := Option.map_eq_some_iff.mp taken
    cases different <;> rfl
  · next nativeShell command => exact absurd rfl (other nativeShell command)
  · exact single taken

theorem returned_fatal (s : State) (call : Call) :
    (s.returned call).process.fatal = s.process.fatal := by
  unfold State.returned
  split
  · cases call <;> rfl
  · cases call <;> rfl

theorem known_iff (h : Nested native s) (nativeShell : Nat) :
    (∃ stage, seen native s.heard nativeShell = some stage ∧ stage ≠ .absent) ↔
      ∃ sh ∈ s.browser.allShells, native sh.ptr = nativeShell := by
  rw [h.staged]
  constructor
  · rintro ⟨stage, same, known⟩
    cases Option.some.inj same
    obtain ⟨shell, listed, here⟩ := stageAt_ne_absent_iff.mp known
    obtain ⟨sh, member, rfl⟩ := List.mem_map.mp listed
    exact ⟨sh, member, here⟩
  · rintro ⟨sh, member, here⟩
    exact ⟨_, rfl, stageAt_ne_absent_iff.mpr ⟨sh.ptr, List.mem_map_of_mem member, here⟩⟩

theorem dispatch_fatal_iff (h : Nested native s) (alive : s.process.fatal = none)
    (nativeShell : Nat) (command : JavaCommand) :
    (s.dispatchShellCommand pageEnv native nativeShell command).process.fatal = none ↔
      ToKnownShell native s (.process (.shellCommand nativeShell command)) := by
  rw [ToKnownShell, known_iff h]
  unfold State.dispatchShellCommand
  split
  · next missing =>
    apply iff_of_false nofun
    rintro ⟨⟨sh, member, here⟩, _⟩
    exact List.find?_eq_none.mp missing sh member (by simpa using here)
  · next sh found =>
    have member := List.mem_of_find?_eq_some found
    have here : native sh.ptr = nativeShell := by simpa using List.find?_some found
    have known : ∃ sh ∈ s.browser.allShells, native sh.ptr = nativeShell := ⟨sh, member, here⟩
    rw [and_iff_right known]
    split
    · next close =>
      subst close
      exact iff_of_true alive nofun
    · exact process_dispatch_fatal alive (List.mem_map_of_mem member) command

theorem step_fatal_iff {e : Event} (h : Nested native s)
    (taken : step env policy pageEnv native s e = some s') :
    s'.process.fatal = none ↔ ToKnownShell native s e := by
  have alive := (step_effect taken).1.1
  unfold step at taken
  split at taken
  · cases taken
  · cases e with
    | process e =>
      cases e with
      | attribution e =>
        rw [start_fatal (fun _ _ => by nofun) taken]
        exact iff_of_true alive trivial
      | shellCommand nativeShell command =>
        cases taken
        exact dispatch_fatal_iff h alive nativeShell command
      | page shell e =>
        rw [start_fatal (fun _ _ => by nofun) taken]
        exact iff_of_true alive trivial
    | returns =>
      simp only at taken
      split at taken
      · cases taken
      · next call rest first =>
        cases taken
        rw [returned_fatal]
        exact iff_of_true alive trivial

/-- What `ToKnownShell` and `ClosesOutside` keep, with the addresses distinct to the end. -/
structure Sound (env : Https.Externals) (policy : Gurl → Gurl → Bool) (pageEnv : PageExternals)
    (native : Nat → Nat) (s : State) (es : List Event) : Prop where
  nested : Nested native s
  numbered : Numbered s
  fatal : s.process.fatal = none
  distinct : Runs.Always (step env policy pageEnv native) (Distinct native) s es

theorem step_sound {e : Event} {es : List Event} (h : Sound env policy pageEnv native s (e :: es))
    (taken : step env policy pageEnv native s e = some s') (known : ToKnownShell native s e)
    (outside : ClosesOutside native s e) : Sound env policy pageEnv native s' es := by
  have effect := (step_effect taken).2
  have tail := h.distinct.2 s' taken
  have nested := effect_nested h.nested h.distinct.1 (Runs.always_first tail) outside effect
  exact ⟨nested, effect_numbered h.numbered effect nested.runs,
    (step_fatal_iff h.nested taken).mpr known, tail⟩

/-- A step that closes a shell from inside a call about it dooms the run. -/
theorem crowds {e : Event} (h : Nested native s) (distinct : Distinct native s)
    (numbered : Numbered s) (effect : Effect native s e s') (alive : s'.process.fatal = none)
    (inside : ¬ ClosesOutside native s e) : Doomed s' := by
  simp only [ClosesOutside, not_forall, not_not, Option.mem_def] at inside
  obtain ⟨address, closing, call, member, same⟩ := inside
  cases effect with
  | updates _ _ _ _ _ _ closes =>
    rw [closes alive] at closing
    cases closing
  | opens _ _ _ _ _ _ closes =>
    rw [closes] at closing
    cases closing
  | hides listed shells next calls heard runs closes =>
    refine ⟨effect_numbered numbered (.hides listed shells next calls heard runs closes) runs, ?_⟩
    rw [closes, Option.some.injEq] at closing
    have own := List.inj_on_of_nodup_map distinct (h.called call member) listed
      (same.trans closing.symm)
    rw [calls]
    exact .inl fun alone => (List.pairwise_cons.mp alone).1 call member rfl own
  | cleansUp _ _ _ _ _ _ _ returns =>
    subst returns
    cases closing
  | removes _ _ _ _ _ _ _ returns =>
    subst returns
    cases closing
  | dangles _ _ _ returns =>
    subst returns
    cases closing

end

theorem initial_sound {env : Https.Externals} {policy : Gurl → Gurl → Bool}
    {pageEnv : PageExternals} {blocker : Blocker} {httpsRewriter : Https.HttpsRewriter}
    {settings : AllSettings} {es : List Event}
    (distinct : Runs.Always (step env policy pageEnv native) (Distinct native)
      (initial blocker httpsRewriter settings) es) :
    Sound env policy pageEnv native (initial blocker httpsRewriter settings) es := by
  have numbered : Numbered (initial blocker httpsRewriter settings) :=
    ⟨List.nodup_nil, fun _ none => (List.not_mem_nil none).elim⟩
  exact ⟨initial_nested blocker httpsRewriter settings, numbered, rfl, distinct⟩

/-- Java closes a shell that is being hidden. -/
example : (Runs.run (step Https.literal (fun _ _ => true) BridgeRuns.canonicalPages id)
    (initial {} {} {}) [.process (.attribution (.shells (.launchShell 0))),
      .process (.shellCommand 1 .close), .process (.shellCommand 1 .close), .returns, .returns,
      .returns]).map (·.dangling) = some true := by
  decide +kernel

end Seaturtle.ReentryRuns
