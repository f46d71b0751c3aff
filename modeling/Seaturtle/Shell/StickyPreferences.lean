import Seaturtle.Shell.Ownership
import Seaturtle.Shell.Preferences

/-! What the preferences of a tab remember of the settings it has lived through. -/
namespace Seaturtle.TabPreferences
open ShellRuns (Opens launchShell_opens addNewContents_opens)

/-- The settings that are and-ed into the record they update. -/
inductive AndSetting where
  | webaudioEnabled
  | experimentalWebglEnabled
  | accelerated2dCanvasEnabled
  | acceleratedFiltersEnabled
  deriving DecidableEq

namespace AndSetting

def inForce : AndSetting → WebPreferences → Bool
  | .webaudioEnabled => (·.webaudioEnabled)
  | .experimentalWebglEnabled => (·.experimentalWebglEnabled)
  | .accelerated2dCanvasEnabled => (·.accelerated2dCanvasEnabled)
  | .acceleratedFiltersEnabled => (·.acceleratedFiltersEnabled)

def allowed : AndSetting → AllSettings → Bool
  | .webaudioEnabled => (·.webPreferences.webaudioEnabled)
  | .experimentalWebglEnabled => (·.webPreferences.experimentalWebglEnabled)
  | .accelerated2dCanvasEnabled => (·.webPreferences.accelerated2dCanvasEnabled)
  | .acceleratedFiltersEnabled => (·.webPreferences.acceleratedFiltersEnabled)

instance (p : AndSetting → Prop) [DecidablePred p] : Decidable (∀ f, p f) :=
  decidable_of_iff (p .webaudioEnabled ∧ p .experimentalWebglEnabled ∧
    p .accelerated2dCanvasEnabled ∧ p .acceleratedFiltersEnabled) ⟨fun ⟨audio, gl, canvas, filters⟩
      f => by cases f <;> assumption, fun all => ⟨all _, all _, all _, all _⟩⟩

end AndSetting

/-- No setting that the platform has and the last settings allow is off in `now`. -/
def NoneTurnedOff (base : WebPreferences) (last now : AllSettings) : Prop :=
  ∀ f : AndSetting, f.inForce base = true → f.allowed last = true → f.allowed now = true

instance (base : WebPreferences) (last now : AllSettings) :
    Decidable (NoneTurnedOff base last now) :=
  inferInstanceAs (Decidable (∀ f : AndSetting,
    f.inForce base = true → f.allowed last = true → f.allowed now = true))

/-- The shell has what the settings in force make of the platform's record, and so has
a tab that is opened next. -/
structure LatestOnly (base : WebPreferences) (t : Tabs) (sh : Shell) : Prop where
  latest : t.webkitPreferences sh.wc.ptr = some (updateWebPreferences t.browser.settings base)
  same : ∀ parent t', step base t (.launchShell parent) = some t' →
    ∀ new ∈ t'.browser.allShells, new ∉ t.browser.allShells →
      t'.webkitPreferences new.wc.ptr = t'.webkitPreferences sh.wc.ptr

/-! One update. -/

theorem update_inForce (as : AllSettings) (p : WebPreferences) (f : AndSetting) :
    f.inForce (updateWebPreferences as p) = (f.inForce p && f.allowed as) := by
  cases f <;> rfl

theorem update_eq_iff {as : AllSettings} {p q : WebPreferences} :
    updateWebPreferences as p = updateWebPreferences as q ↔
      ∀ f : AndSetting, (f.inForce p && f.allowed as) = (f.inForce q && f.allowed as) := by
  constructor
  · intro same f
    have inForce := congrArg f.inForce same
    simpa only [update_inForce] using inForce
  · intro agree
    have webaudio := agree .webaudioEnabled
    have webgl := agree .experimentalWebglEnabled
    have canvas := agree .accelerated2dCanvasEnabled
    have filters := agree .acceleratedFiltersEnabled
    simp only [AndSetting.inForce, AndSetting.allowed] at webaudio webgl canvas filters
    simp only [updateWebPreferences, webaudio, webgl, canvas, filters]

theorem update_twice (as : AllSettings) (p : WebPreferences) :
    updateWebPreferences as (updateWebPreferences as p) = updateWebPreferences as p := by
  simp [update_eq_iff, update_inForce]

/-- The loop over the shells updates the preferences of each, whatever it shares. -/
theorem foldlM_updateShell {settings : AllSettings} {shells : List Shell}
    {prefs prefs' : HashMap Nat WebPreferences}
    (done : shells.foldlM (Tabs.updateShell settings) prefs = some prefs') (ptr : Nat) :
    prefs' ptr = if ptr ∈ shells.map (·.wc.ptr) then (prefs ptr).map (updateWebPreferences settings)
      else prefs ptr := by
  induction shells generalizing prefs with
  | nil =>
    cases done
    simp
  | cons sh shells ih =>
    simp only [List.foldlM_cons, Option.bind_eq_bind, Option.bind_eq_some_iff] at done
    obtain ⟨first, updated, rest⟩ := done
    have later := ih rest
    unfold Tabs.updateShell at updated
    split at updated
    · cases updated
    · next wp found =>
      cases updated
      by_cases here : ptr = sh.wc.ptr
      · subst here
        simp [later, HashMap.set_apply, found, update_twice]
      · simp [later, HashMap.set_apply, here]

/-! What a step does to one shell. -/

/-- What a step does to a shell: it opens it, updates its preferences under new settings,
or leaves it alone, unless it closes it. -/
inductive Effect (base : WebPreferences) (t t' : Tabs) (sh : Shell) : Prop where
  | opens (new : sh ∉ t.browser.allShells) (live : sh ∈ t'.browser.allShells)
      (prefs : t'.webkitPreferences sh.wc.ptr =
        some (updateWebPreferences t'.browser.settings base))
  | updates (live : sh ∈ t'.browser.allShells ↔ sh ∈ t.browser.allShells)
      (prefs : sh ∈ t.browser.allShells → t'.webkitPreferences sh.wc.ptr =
        (t.webkitPreferences sh.wc.ptr).map (updateWebPreferences t'.browser.settings))
  | keeps (live : sh ∈ t'.browser.allShells → sh ∈ t.browser.allShells)
      (settings : t'.browser.settings = t.browser.settings)
      (prefs : sh ∈ t.browser.allShells →
        t'.webkitPreferences sh.wc.ptr = t.webkitPreferences sh.wc.ptr)

variable {base : WebPreferences} {t t' : Tabs}

/-- The preferences are those that the settings in force make of some record that has
nothing the platform has not. -/
def Current (base : WebPreferences) (as : AllSettings) (p : WebPreferences) : Prop :=
  ∃ q, p = updateWebPreferences as q ∧ ∀ f : AndSetting, f.inForce q = true → f.inForce base = true

structure Tracked (base : WebPreferences) (t : Tabs) : Prop where
  ptr : ∀ sh ∈ t.browser.allShells, sh.ptr < t.browser.nextPtr
  contents : ∀ sh ∈ t.browser.allShells, sh.wc.ptr < t.browser.nextPtr
  prefs : ∀ sh ∈ t.browser.allShells,
    ∃ p, t.webkitPreferences sh.wc.ptr = some p ∧ Current base t.browser.settings p

variable (base) in
theorem opens_prefs {b' : Browser} {new : Shell} (opens : Opens t.browser b' new) :
    (createRenderViewHost base t b').webkitPreferences new.wc.ptr =
      some (updateWebPreferences t.browser.settings base) := by
  simp [createRenderViewHost, HashMap.set_apply, opens.contents, overrideWebkitPrefs]

theorem opens_others (h : Tracked base t) (b' : Browser) {sh : Shell}
    (live : sh ∈ t.browser.allShells) :
    (createRenderViewHost base t b').webkitPreferences sh.wc.ptr =
      t.webkitPreferences sh.wc.ptr := by
  have below := h.contents sh live
  have other : sh.wc.ptr ≠ t.browser.nextPtr := by omega
  simp [createRenderViewHost, HashMap.set_apply, other]

theorem opens_effect {b' : Browser} {new : Shell} (h : Tracked base t)
    (opens : Opens t.browser b' new) (sh : Shell) :
    Effect base t (createRenderViewHost base t b') sh := by
  by_cases this : sh = new
  · subst this
    refine .opens (fun live => ?_) ?_ ?_
    · have below := h.ptr sh live
      have address := opens.ptr
      omega
    · simp [createRenderViewHost, opens.shells]
    · have prefs := opens_prefs base opens
      rwa [← opens.settings] at prefs
  · refine .keeps (fun live => ?_) opens.settings (opens_others h b')
    simpa [createRenderViewHost, opens.shells, this] using live

theorem step_opens {e : ShellRuns.Event} (taken : step base t e = some t') :
    (∃ b' new, Opens t.browser b' new ∧ t' = createRenderViewHost base t b') ∨
    (∃ settings, e = .updateGlobalSettings settings ∧ t.updateGlobalSettings settings = some t') ∨
    ∃ sh ∈ t.browser.allShells, t' = { t with browser := t.browser.close sh } := by
  cases e with
  | launchShell parent =>
    cases taken
    obtain ⟨new, opens⟩ := launchShell_opens t.browser parent
    exact .inl ⟨_, new, opens, rfl⟩
  | addNewContents opener =>
    obtain ⟨b', opened, rfl⟩ := Option.map_eq_some_iff.mp taken
    obtain ⟨sh, _, rfl⟩ := Option.map_eq_some_iff.mp opened
    obtain ⟨new, opens⟩ := addNewContents_opens t.browser sh
    exact .inl ⟨_, new, opens, rfl⟩
  | close ptr =>
    obtain ⟨b', closed, rfl⟩ := Option.map_eq_some_iff.mp taken
    obtain ⟨sh, found, rfl⟩ := Option.map_eq_some_iff.mp closed
    exact .inr (.inr ⟨sh, ShellRuns.forPtr_mem found, rfl⟩)
  | updateGlobalSettings settings => exact .inr (.inl ⟨settings, rfl, taken⟩)

theorem update_effect {settings : AllSettings} (updated : t.updateGlobalSettings settings = some t')
    (sh : Shell) : Effect base t t' sh := by
  obtain ⟨prefs, loop, rfl⟩ := Option.map_eq_some_iff.mp updated
  refine .updates Iff.rfl (fun live => ?_)
  have reached : sh.wc.ptr ∈ t.browser.allShells.map (·.wc.ptr) := List.mem_map_of_mem live
  have all := foldlM_updateShell loop sh.wc.ptr
  exact all.trans (if_pos reached)

theorem step_effect {e : ShellRuns.Event} (h : Tracked base t) (taken : step base t e = some t')
    (sh : Shell) : Effect base t t' sh := by
  rcases step_opens taken with ⟨b', new, opens, rfl⟩ | ⟨settings, _, updated⟩ | ⟨closed, _, rfl⟩
  · exact opens_effect h opens sh
  · exact update_effect updated sh
  · obtain ⟨destroyed, toJava, eq⟩ := ShellRuns.close_eq t.browser closed
    refine .keeps (fun live => ShellRuns.close_shells live) ?_ (fun _ => rfl)
    simp [eq]

theorem step_nextPtr {e : ShellRuns.Event} (taken : step base t e = some t') :
    t.browser.nextPtr ≤ t'.browser.nextPtr ∧
      ∀ sh ∈ t'.browser.allShells, sh ∉ t.browser.allShells →
        t.browser.nextPtr ≤ sh.ptr ∧ sh.ptr < t'.browser.nextPtr ∧
          sh.wc.ptr < t'.browser.nextPtr := by
  rcases step_opens taken with ⟨b', new, opens, rfl⟩ | ⟨settings, _, updated⟩ | ⟨closed, _, rfl⟩
  · have next := opens.next
    have ptr := opens.ptr
    have contents := opens.contents
    refine ⟨by simp [createRenderViewHost, next], fun sh live new' => ?_⟩
    have this : sh = new := by
      simpa [createRenderViewHost, opens.shells, new'] using live
    subst this
    simp only [createRenderViewHost]
    omega
  · obtain ⟨prefs, _, rfl⟩ := Option.map_eq_some_iff.mp updated
    exact ⟨Nat.le_refl _, fun sh live gone => absurd live gone⟩
  · obtain ⟨destroyed, toJava, eq⟩ := ShellRuns.close_eq t.browser closed
    refine ⟨by simp [eq], fun sh live gone => ?_⟩
    exact absurd (ShellRuns.close_shells live) gone

theorem step_tracked {e : ShellRuns.Event} (h : Tracked base t) (taken : step base t e = some t') :
    Tracked base t' := by
  have next := step_nextPtr taken
  refine ⟨fun sh live => ?_, fun sh live => ?_, fun sh live => ?_⟩
  · by_cases before : sh ∈ t.browser.allShells
    · exact Nat.lt_of_lt_of_le (h.ptr sh before) next.1
    · exact (next.2 sh live before).2.1
  · by_cases before : sh ∈ t.browser.allShells
    · exact Nat.lt_of_lt_of_le (h.contents sh before) next.1
    · exact (next.2 sh live before).2.2
  · cases step_effect h taken sh with
    | opens _ _ prefs => exact ⟨_, prefs, base, rfl, fun f has => has⟩
    | updates alive prefs =>
      obtain ⟨p, before, q, rfl, within⟩ := h.prefs sh (alive.mp live)
      have after := prefs (alive.mp live)
      rw [before] at after
      refine ⟨_, after, _, rfl, fun f has => ?_⟩
      rw [update_inForce, Bool.and_eq_true] at has
      exact within f has.1
    | keeps alive settings prefs =>
      have before := h.prefs sh (alive live)
      rwa [← settings, ← prefs (alive live)] at before

/-! A tab's whole life. -/

/-- Nothing is off that the platform has and the last settings allow. -/
def Kept (base : WebPreferences) (last : AllSettings) (p : WebPreferences) : Prop :=
  ∀ f : AndSetting, f.inForce base = true → f.allowed last = true → f.inForce p = true

def Gone (sh : Shell) (t : Tabs) : Prop :=
  sh ∉ t.browser.allShells ∧ sh.ptr < t.browser.nextPtr

theorem kept_update {last as : AllSettings} {p : WebPreferences} :
    Kept base last (updateWebPreferences as p) ↔ Kept base last p ∧ NoneTurnedOff base last as := by
  simp only [Kept, NoneTurnedOff, update_inForce, Bool.and_eq_true]
  constructor
  · intro kept
    exact ⟨fun f has allows => (kept f has allows).1, fun f has allows => (kept f has allows).2⟩
  · rintro ⟨kept, on⟩ f has allows
    exact ⟨kept f has allows, on f has allows⟩

theorem kept_current {last : AllSettings} {p : WebPreferences} (current : Current base last p) :
    p = updateWebPreferences last base ↔ Kept base last p := by
  obtain ⟨q, rfl, within⟩ := current
  simp only [update_eq_iff, Kept, update_inForce, Bool.and_eq_true]
  constructor
  · intro same f has allows
    have here := same f
    simpa [has, allows] using here
  · intro kept f
    cases has : f.inForce base with
    | false =>
      have hasNot : f.inForce q = false := by
        cases had : f.inForce q with
        | false => rfl
        | true =>
          have platform := within f had
          simp [has] at platform
      simp [hasNot]
    | true =>
      cases allows : f.allowed last with
      | false => simp
      | true =>
        have on := kept f has allows
        simp [on.1]

theorem kept_on (last : AllSettings) {p : WebPreferences}
    (current : Current base t.browser.settings p) (kept : Kept base last p) :
    NoneTurnedOff base last t.browser.settings := by
  obtain ⟨q, rfl, _⟩ := current
  exact (kept_update.mp kept).2

theorem gone_stays {e : ShellRuns.Event} {sh : Shell} (gone : Gone sh t)
    (taken : step base t e = some t') : Gone sh t' := by
  have next := step_nextPtr taken
  refine ⟨fun live => ?_, Nat.lt_of_lt_of_le gone.2 next.1⟩
  have above := (next.2 sh live gone.1).1
  have below := gone.2
  omega

def Carried (base : WebPreferences) (last : AllSettings) (sh : Shell) (t : Tabs) : Prop :=
  sh ∈ t.browser.allShells → ∀ p ∈ t.webkitPreferences sh.wc.ptr, Kept base last p

def OnWhileOpen (base : WebPreferences) (last : AllSettings) (sh : Shell) (t : Tabs) : Prop :=
  sh ∈ t.browser.allShells → NoneTurnedOff base last t.browser.settings

instance (base : WebPreferences) (last : AllSettings) (sh : Shell) :
    DecidablePred (OnWhileOpen base last sh) :=
  fun t => inferInstanceAs (Decidable
    (sh ∈ t.browser.allShells → NoneTurnedOff base last t.browser.settings))

theorem step_carries {e : ShellRuns.Event} {sh : Shell} {last : AllSettings} (h : Tracked base t)
    (taken : step base t e = some t') (lives : ¬ Gone sh t') :
    Carried base last sh t' ↔ Carried base last sh t ∧ OnWhileOpen base last sh t' := by
  cases step_effect h taken sh with
  | opens new live prefs =>
    have had : Kept base last base := fun f has _ => has
    simp [Carried, OnWhileOpen, new, live, prefs, kept_update, had]
  | updates alive prefs =>
    by_cases live : sh ∈ t.browser.allShells
    · obtain ⟨p, before, _⟩ := h.prefs sh live
      have after := prefs live
      simp [Carried, OnWhileOpen, alive, live, before, after, kept_update]
    · simp [Carried, OnWhileOpen, alive, live]
  | keeps alive settings prefs =>
    by_cases live : sh ∈ t'.browser.allShells
    · obtain ⟨p, before, current⟩ := h.prefs sh (alive live)
      have after := prefs (alive live)
      have on := kept_on last current
      simpa [Carried, OnWhileOpen, alive live, live, before, after, settings] using on
    · have absent : sh ∉ t.browser.allShells := by
        intro before
        have below := h.ptr sh before
        have next := (step_nextPtr taken).1
        exact lives ⟨live, by omega⟩
      simp [Carried, OnWhileOpen, live, absent]

theorem initial_tracked (settings : AllSettings) : Tracked base (initial settings) :=
  ⟨fun _ none => (List.not_mem_nil none).elim, fun _ none => (List.not_mem_nil none).elim,
    fun _ none => (List.not_mem_nil none).elim⟩

theorem latestOnly_iff {sh : Shell} (h : Tracked base t) (live : sh ∈ t.browser.allShells) :
    LatestOnly base t sh ↔ Carried base t.browser.settings sh t := by
  obtain ⟨p, prefs, current⟩ := h.prefs sh live
  have kept := kept_current current
  constructor
  · intro latest _ p' here
    cases prefs.symm.trans here
    have same := latest.latest
    rw [prefs, Option.some.injEq] at same
    exact kept.mp same
  · intro carried
    have same := kept.mpr (carried live p prefs)
    refine ⟨prefs.trans (congrArg some same), fun parent t' launched new listed unlisted => ?_⟩
    cases launched
    obtain ⟨opened, opens⟩ := launchShell_opens t.browser parent
    have this : new = opened := by
      simpa [createRenderViewHost, opens.shells, unlisted] using listed
    subst this
    rw [opens_prefs base opens, opens_others h _ live, prefs, ← same]

/-- A live tab has the preferences of the last settings alone exactly when nothing that
they allow was off while the tab was open. -/
theorem preferences_latest_iff (base : WebPreferences) {settings : AllSettings}
    {es : List ShellRuns.Event} {t : Tabs}
    (reached : Runs.run (step base) (initial settings) es = some t) {sh : Shell}
    (live : sh ∈ t.browser.allShells) :
    LatestOnly base t sh ↔
      Runs.Always (step base) (OnWhileOpen base t.browser.settings sh) (initial settings) es := by
  have tracked := Runs.invariant (initial_tracked settings) (fun _ _ _ => step_tracked) reached
  have none : sh ∉ (initial settings).browser.allShells := List.not_mem_nil
  have begins : Carried base t.browser.settings sh (initial settings) ↔
      OnWhileOpen base t.browser.settings sh (initial settings) := by
    simp [Carried, OnWhileOpen, none]
  rw [latestOnly_iff tracked live]
  exact Runs.last_iff_always (Tracked base) _ _ (Gone sh) (initial_tracked settings) begins
    (fun _ _ _ => step_tracked) (fun _ _ _ => step_carries) (fun _ _ _ => gone_stays) reached
    fun gone => gone.1 live

/-- A platform that has everything. -/
def platform : WebPreferences := updateWebPreferences {} ⟨true, true, true, true, true, true, true,
  true, true, true, true, true, true, true, true, true, true, true, true, true, true, true, true,
  true, true, true, true, true, true, true, true, true, true⟩

def withoutWebgl : AllSettings := { webPreferences := { experimentalWebglEnabled := false } }

def webglOff : List ShellRuns.Event := [.launchShell 0, .updateGlobalSettings withoutWebgl]

theorem preferences_latest_iff_webgl_off :
    ∃ t, Runs.run (step platform) (initial {}) webglOff = some t ∧
      ∃ sh ∈ t.browser.allShells, LatestOnly platform t sh := by
  refine ⟨_, rfl, _, List.mem_cons_self, ?_⟩
  have reached : Runs.run (step platform) (initial {}) webglOff = some _ := rfl
  apply (preferences_latest_iff platform reached List.mem_cons_self).mpr
  decide +kernel

/-- WebGL is turned off and on again while a tab is open. -/
def offAndOn : List ShellRuns.Event :=
  [.launchShell 0, .updateGlobalSettings withoutWebgl, .updateGlobalSettings {}, .launchShell 0]

theorem webgl_stays_off :
    ∃ t, Runs.run (step platform) (initial {}) offAndOn = some t ∧
      t.browser.allShells.map (fun sh => (t.webkitPreferences sh.wc.ptr).map
        (·.experimentalWebglEnabled)) = [some false, some true] ∧
      ∃ sh ∈ t.browser.allShells, ¬ LatestOnly platform t sh := by
  refine ⟨_, rfl, by decide +kernel, _, List.mem_cons_self, fun latest => ?_⟩
  have webgl := congrArg (Option.map (·.experimentalWebglEnabled)) latest.latest
  revert webgl
  decide +kernel

end Seaturtle.TabPreferences
