import Seaturtle.Lib.Runs
import Seaturtle.Shell.Registry

/-! Who keeps a browser context alive. -/
namespace Seaturtle.ShellRuns

/-- The shell's contents run in the singleton or in the context the shell owns. -/
def OwnsContext (sh : Shell) : Prop :=
  sh.wc.browserContext = .global ∨ sh.sbc = some sh.wc.browserContext

def NoDangling (b : Browser) : Prop := ∀ sh ∈ b.allShells, sh.wc.browserContext ∉ b.destroyed

/-- What every run keeps: owners run in what they own, and what was destroyed has
no owner left. -/
structure Accounted (b : Browser) : Prop where
  owner : ∀ sh ∈ b.allShells, ∀ c, sh.sbc = some c →
    sh.wc.browserContext = c ∧ ∃ n, c = .isolated n
  fresh : ∀ sh ∈ b.allShells, ∀ n, sh.wc.browserContext = .isolated n → n < b.nextContext
  released : ∀ c ∈ b.destroyed, (∃ n, c = .isolated n ∧ n < b.nextContext) ∧
    ∀ sh ∈ b.allShells, sh.sbc ≠ some c

theorem forPtr_mem {b : Browser} {ptr : Nat} {sh : Shell} (h : b.forPtr ptr = some sh) :
    sh ∈ b.allShells := List.mem_of_find?_eq_some h

theorem forPtr_ptr {b : Browser} {ptr : Nat} {sh : Shell} (h : b.forPtr ptr = some sh) :
    sh.ptr = ptr := by simpa using List.find?_some h

theorem forPtr_some_iff {b : Browser} {ptr : Nat} :
    (∃ sh, b.forPtr ptr = some sh) ↔ ptr ∈ b.allShells.map (·.ptr) := by
  rw [← Option.isSome_iff_exists, Browser.forPtr, List.find?_isSome, List.mem_map]
  simp

theorem createShell_accounted {b : Browser} {wc : WebContents} {parent : Nat}
    {sbc : Option BrowserContext} (h : Accounted b)
    (owner : ∀ c, sbc = some c → wc.browserContext = c ∧ (∃ n, c = .isolated n) ∧ c ∉ b.destroyed)
    (fresh : ∀ n, wc.browserContext = .isolated n → n < b.nextContext) :
    Accounted (b.createShell wc parent sbc) := by
  constructor
  · intro sh member c owns
    rcases List.mem_append.mp member with old | new
    · exact h.owner sh old c owns
    · cases List.mem_singleton.mp new
      exact ⟨(owner c owns).1, (owner c owns).2.1⟩
  · intro sh member n runs
    rcases List.mem_append.mp member with old | new
    · exact h.fresh sh old n runs
    · cases List.mem_singleton.mp new
      exact fresh n runs
  · intro c gone
    refine ⟨(h.released c gone).1, fun sh member => ?_⟩
    rcases List.mem_append.mp member with old | new
    · exact (h.released c gone).2 sh old
    · cases List.mem_singleton.mp new
      intro owns
      exact (owner c owns).2.2 gone

theorem launchShell_accounted {b : Browser} {parent : Nat} (h : Accounted b) :
    Accounted (b.launchShell parent) := by
  unfold Browser.launchShell
  split
  · apply createShell_accounted
    · exact ⟨h.owner, h.fresh, h.released⟩
    · intro c none; cases none
    · intro n impossible; cases impossible
  · apply createShell_accounted
    · refine ⟨h.owner, fun sh member n runs => ?_, fun c gone => ⟨?_, (h.released c gone).2⟩⟩
      · exact Nat.lt_succ_of_lt (h.fresh sh member n runs)
      · obtain ⟨n, hc, below⟩ := (h.released c gone).1
        exact ⟨n, hc, Nat.lt_succ_of_lt below⟩
    · intro c owns
      cases owns
      refine ⟨rfl, ⟨_, rfl⟩, fun gone => ?_⟩
      obtain ⟨n, hc, below⟩ := (h.released _ gone).1
      cases hc
      exact Nat.lt_irrefl _ below
    · intro n runs
      cases runs
      exact Nat.lt_succ_self _

theorem addNewContents_accounted {b : Browser} {sh : Shell} {wc : WebContents} (h : Accounted b)
    (member : sh ∈ b.allShells) (inherits : wc.browserContext = sh.wc.browserContext) :
    Accounted (b.addNewContents sh wc) := by
  have created : Accounted
      (b.createShell wc sh.ptr (if b.settings.state.singleContext then none else sh.sbc)) := by
    apply createShell_accounted h
    · intro c owns
      split at owns
      · cases owns
      · obtain ⟨runs, isolated⟩ := h.owner sh member c owns
        exact ⟨inherits.trans runs, isolated, fun gone => (h.released c gone).2 sh member owns⟩
    · intro n runs
      exact h.fresh sh member n (inherits ▸ runs)
  exact ⟨created.owner, created.fresh, created.released⟩

/-- Releasing a context changes nothing but what is destroyed. -/
theorem releaseContext_eq (b : Browser) (sbc : Option BrowserContext) :
    ∃ destroyed, b.releaseContext sbc = { b with destroyed } := by
  unfold Browser.releaseContext
  split
  · exact ⟨b.destroyed, rfl⟩
  · split
    · exact ⟨b.destroyed, rfl⟩
    · exact ⟨_, rfl⟩

theorem releaseContext_destroyed {b : Browser} {sbc : Option BrowserContext} {c : BrowserContext}
    (gone : c ∈ (b.releaseContext sbc).destroyed) :
    c ∈ b.destroyed ∨ (sbc = some c ∧ ∀ sh ∈ b.allShells, sh.sbc ≠ some c) := by
  unfold Browser.releaseContext at gone
  split at gone
  · exact .inl gone
  · next context =>
    split at gone
    · exact .inl gone
    · next none =>
      rcases List.mem_cons.mp gone with rfl | old
      · refine .inr ⟨rfl, fun sh member owns => none ?_⟩
        exact List.any_eq_true.mpr ⟨sh, member, beq_iff_eq.mpr owns⟩
      · exact .inl old

theorem releaseContext_allShells (b : Browser) (sbc : Option BrowserContext) :
    (b.releaseContext sbc).allShells = b.allShells := by
  obtain ⟨destroyed, released⟩ := releaseContext_eq b sbc
  rw [released]

theorem removeShell_shells (b : Browser) (sh : Shell) :
    (b.removeShell sh).allShells.map (·.ptr) = (b.allShells.map (·.ptr)).erase sh.ptr := by
  rw [Browser.removeShell, releaseContext_allShells, List.erase_eq_eraseP',
    List.eraseP_map]
  rfl

theorem removeShell_toJava (b : Browser) (sh : Shell) : (b.removeShell sh).toJava = b.toJava := by
  obtain ⟨destroyed, released⟩ := releaseContext_eq (b.unregister sh) sh.sbc
  rw [Browser.removeShell, released]
  rfl

theorem removeShell_nextPtr (b : Browser) (sh : Shell) :
    (b.removeShell sh).nextPtr = b.nextPtr := by
  obtain ⟨destroyed, released⟩ := releaseContext_eq (b.unregister sh) sh.sbc
  rw [Browser.removeShell, released]
  rfl

theorem close_eq (b : Browser) (sh : Shell) : ∃ destroyed toJava, b.close sh =
    { b with allShells := b.allShells.eraseP (·.ptr == sh.ptr), destroyed, toJava } := by
  unfold Browser.close Browser.destroyShell Browser.removeShell
  obtain ⟨destroyed, released⟩ := releaseContext_eq
    (((b.sendCommand sh.ptr .hide).sendCommand sh.ptr .cleanup).unregister sh) sh.sbc
  exact ⟨destroyed, _, released⟩

theorem close_toJava (b : Browser) (sh : Shell) : (b.close sh).toJava =
    b.toJava ++ [.shellCommand sh.ptr .hide] ++ [.shellCommand sh.ptr .cleanup] := by
  unfold Browser.close Browser.destroyShell Browser.removeShell
  obtain ⟨destroyed, released⟩ := releaseContext_eq
    (((b.sendCommand sh.ptr .hide).sendCommand sh.ptr .cleanup).unregister sh) sh.sbc
  rw [released]
  rfl

theorem close_shells {b : Browser} {sh s : Shell} (member : s ∈ (b.close sh).allShells) :
    s ∈ b.allShells := by
  obtain ⟨destroyed, toJava, closed⟩ := close_eq b sh
  rw [closed] at member
  exact List.mem_of_mem_eraseP member

theorem close_nextContext (b : Browser) (sh : Shell) :
    (b.close sh).nextContext = b.nextContext := by
  obtain ⟨destroyed, toJava, closed⟩ := close_eq b sh
  rw [closed]

theorem close_destroyed {b : Browser} {sh : Shell} {c : BrowserContext}
    (gone : c ∈ (b.close sh).destroyed) :
    c ∈ b.destroyed ∨ (sh.sbc = some c ∧ ∀ s ∈ (b.close sh).allShells, s.sbc ≠ some c) := by
  rw [Browser.close, Browser.destroyShell, Browser.removeShell] at gone ⊢
  rw [releaseContext_allShells]
  exact releaseContext_destroyed gone

theorem close_accounted {b : Browser} {sh : Shell} (h : Accounted b) (member : sh ∈ b.allShells) :
    Accounted (b.close sh) := by
  constructor
  · intro s hs c owns
    exact h.owner s (close_shells hs) c owns
  · intro s hs n runs
    rw [close_nextContext]
    exact h.fresh s (close_shells hs) n runs
  · intro c gone
    rw [close_nextContext]
    rcases close_destroyed gone with old | ⟨owned, orphan⟩
    · exact ⟨(h.released c old).1, fun s hs => (h.released c old).2 s (close_shells hs)⟩
    · obtain ⟨runs, n, hc⟩ := h.owner sh member c owned
      exact ⟨⟨n, hc, h.fresh sh member n (runs.trans hc)⟩, orphan⟩

theorem step_accounted {b b' : Browser} {e : Event} (h : Accounted b) (hs : step b e = some b') :
    Accounted b' := by
  cases e with
  | launchShell parent =>
    cases hs
    exact launchShell_accounted h
  | addNewContents opener =>
    obtain ⟨sh, found, hb⟩ := Option.map_eq_some_iff.mp hs
    cases hb
    have same : Accounted (b.createWebContents sh.wc.browserContext).2 :=
      ⟨h.owner, h.fresh, h.released⟩
    exact addNewContents_accounted same (forPtr_mem found) rfl
  | close ptr =>
    obtain ⟨sh, found, hb⟩ := Option.map_eq_some_iff.mp hs
    cases hb
    exact close_accounted h (forPtr_mem found)
  | updateGlobalSettings settings =>
    cases hs
    exact ⟨h.owner, h.fresh, h.released⟩

/-- A shell that is opened has new contents at a new address, Java is told of it, and
nothing else changes. -/
structure Opens (b b' : Browser) (new : Shell) : Prop where
  shells : b'.allShells = b.allShells ++ [new]
  contents : new.wc.ptr = b.nextPtr
  ptr : new.ptr = b.nextPtr + 1
  next : b'.nextPtr = b.nextPtr + 2
  settings : b'.settings = b.settings
  toJava : ∃ commands : List (Nat × ShellCommand), (∀ c ∈ commands, c.2 = .notifyPopupOpened) ∧
    b'.toJava = b.toJava ++ [.launchShellResponse new.ptr new.wc.ptr] ++
      commands.map fun c => .shellCommand c.1 c.2

theorem launchShell_opens (b : Browser) (parent : Nat) :
    ∃ new, Opens b (b.launchShell parent) new := by
  unfold Browser.launchShell
  split
  · exact ⟨_, rfl, rfl, rfl, rfl, rfl, [], nofun, (List.append_nil _).symm⟩
  · exact ⟨_, rfl, rfl, rfl, rfl, rfl, [], nofun, (List.append_nil _).symm⟩

theorem addNewContents_opens (b : Browser) (sh : Shell) :
    ∃ new, Opens b ((b.createWebContents sh.wc.browserContext).2.addNewContents sh
      (b.createWebContents sh.wc.browserContext).1) new :=
  ⟨_, rfl, rfl, rfl, rfl, rfl, [(sh.ptr, .notifyPopupOpened)], by simp, rfl⟩

theorem step_opens {b b' : Browser} {e : Event} (hs : step b e = some b') :
    (∃ new, Opens b b' new) ∨ (∃ settings, b' = b.updateGlobalSettings settings) ∨
      ∃ sh ∈ b.allShells, b' = b.close sh := by
  cases e with
  | launchShell parent =>
    cases hs
    exact .inl (launchShell_opens b parent)
  | addNewContents opener =>
    obtain ⟨sh, _, rfl⟩ := Option.map_eq_some_iff.mp hs
    exact .inl (addNewContents_opens b sh)
  | close ptr =>
    obtain ⟨sh, found, rfl⟩ := Option.map_eq_some_iff.mp hs
    exact .inr (.inr ⟨sh, forPtr_mem found, rfl⟩)
  | updateGlobalSettings settings =>
    cases hs
    exact .inr (.inl ⟨settings, rfl⟩)

theorem step_settings {b b' : Browser} {e : Event} (hs : step b e = some b') :
    b'.settings = b.settings ∨
      ∃ settings, e = .updateGlobalSettings settings ∧ b'.settings = settings := by
  cases e with
  | launchShell parent =>
    cases hs
    unfold Browser.launchShell
    split <;> exact .inl rfl
  | addNewContents opener =>
    obtain ⟨sh, _, rfl⟩ := Option.map_eq_some_iff.mp hs
    exact .inl rfl
  | close ptr =>
    obtain ⟨sh, _, rfl⟩ := Option.map_eq_some_iff.mp hs
    obtain ⟨destroyed, toJava, closed⟩ := close_eq b sh
    rw [closed]
    exact .inl rfl
  | updateGlobalSettings settings =>
    cases hs
    exact .inr ⟨settings, rfl, rfl⟩

/-- A popup that is opened while `single_context` is on has an opener that owns
no context. -/
def OpenerOwnsNothing (b : Browser) : Event → Prop
  | .addNewContents opener => b.settings.state.singleContext = true →
      ∀ sh, b.forPtr opener = some sh → sh.sbc = none
  | _ => True

theorem mem_createShell {b : Browser} {wc : WebContents} {parent : Nat}
    {sbc : Option BrowserContext} {sh : Shell} :
    sh ∈ (b.createShell wc parent sbc).allShells ↔
      sh ∈ b.allShells ∨ sh = { ptr := b.nextPtr, wc, sbc, parentShell := parent } := by
  rw [Browser.createShell, List.mem_append, List.mem_singleton]

theorem step_owns {b b' : Browser} {e : Event} (h : ∀ sh ∈ b.allShells, OwnsContext sh)
    (hs : step b e = some b') (opener : OpenerOwnsNothing b e) :
    ∀ sh ∈ b'.allShells, OwnsContext sh := by
  cases e with
  | launchShell parent =>
    cases hs
    unfold Browser.launchShell
    split
    · intro sh member
      rcases mem_createShell.mp member with old | rfl
      · exact h sh old
      · exact .inl rfl
    · intro sh member
      rcases mem_createShell.mp member with old | rfl
      · exact h sh old
      · exact .inr rfl
  | addNewContents ptr =>
    obtain ⟨parent, found, hb⟩ := Option.map_eq_some_iff.mp hs
    cases hb
    intro sh member
    rcases mem_createShell.mp member with old | rfl
    · exact h sh old
    · have inherited := h parent (forPtr_mem found)
      cases single : b.settings.state.singleContext with
      | false =>
        rcases inherited with global | owned
        · exact .inl global
        · exact .inr owned
      | true =>
        rcases inherited with global | owned
        · exact .inl global
        · rw [opener single parent found] at owned
          cases owned
  | close ptr =>
    obtain ⟨sh, found, hb⟩ := Option.map_eq_some_iff.mp hs
    cases hb
    exact fun s hs => h s (close_shells hs)
  | updateGlobalSettings settings =>
    cases hs
    exact h

theorem opener_owns_nothing {b b' : Browser} {e : Event} (h : Accounted b)
    (hs : step b e = some b') (owns : ∀ sh ∈ b'.allShells, OwnsContext sh) :
    OpenerOwnsNothing b e := by
  cases e with
  | addNewContents ptr =>
    intro single parent found
    cases sbc : parent.sbc with
    | none => rfl
    | some c =>
      exfalso
      obtain ⟨runs, n, hc⟩ := h.owner parent (forPtr_mem found) c sbc
      have hb : b' = (b.createWebContents parent.wc.browserContext).2.addNewContents parent
          (b.createWebContents parent.wc.browserContext).1 := by
        rw [step, found] at hs
        exact (Option.some.inj hs).symm
      have popup : OwnsContext ⟨b.nextPtr + 1, ⟨b.nextPtr, parent.wc.browserContext⟩, none,
          parent.ptr, []⟩ := by
        apply owns
        rw [hb]
        refine mem_createShell.mpr (.inr ?_)
        simp [Browser.createWebContents, single]
      rcases popup with global | owned
      · rw [show parent.wc.browserContext = .isolated n from runs.trans hc] at global
        cases global
      · cases owned
  | _ => trivial

theorem no_dangling {b : Browser} (h : Accounted b) (owns : ∀ sh ∈ b.allShells, OwnsContext sh) :
    NoDangling b := by
  intro sh member gone
  obtain ⟨⟨n, isolated, _⟩, orphan⟩ := h.released _ gone
  rcases owns sh member with global | owned
  · rw [global] at isolated
    cases isolated
  · exact orphan sh member owned

/-- In a run every shell keeps its own context alive in every state exactly when no
shell that owns a context opens a popup while `single_context` is on. -/
theorem contexts_owned_iff (settings : AllSettings) (es : List Event) :
    Runs.Always step (fun b => (∀ sh ∈ b.allShells, OwnsContext sh) ∧ NoDangling b)
        (initial settings) es ↔
      Runs.Along step (fun b e _ => OpenerOwnsNothing b e) (initial settings) es := by
  apply Runs.always_iff_along (fun b => Accounted b ∧ ∀ sh ∈ b.allShells, OwnsContext sh)
  · exact ⟨⟨fun _ h => (List.not_mem_nil h).elim, fun _ h => (List.not_mem_nil h).elim,
      fun _ h => (List.not_mem_nil h).elim⟩, fun _ h => (List.not_mem_nil h).elim⟩
  · intro b e b' h hs opener
    exact ⟨step_accounted h.1 hs, step_owns h.2 hs opener⟩
  · intro b h
    exact ⟨h.2, no_dangling h.1 h.2⟩
  · intro b e b' h hs owns
    exact opener_owns_nothing h.1 hs owns.1

/-- An isolated tab, then `single_context` on, a popup, and the opener is closed. -/
def orphanedPopup : List Event :=
  [.launchShell 0, .updateGlobalSettings {}, .addNewContents 1, .close 1]

theorem popup_outlives_context :
    ∃ b, Runs.run step (initial { state := { singleContext := false } }) orphanedPopup = some b ∧
      ∃ sh ∈ b.allShells, ¬ OwnsContext sh ∧ sh.wc.browserContext ∈ b.destroyed := by
  refine ⟨_, rfl, _, List.mem_cons_self, ?_, List.mem_cons_self⟩
  rintro (global | owned)
  · cases global
  · cases owned

end Seaturtle.ShellRuns
