import Seaturtle.Cookies.Stages

/-! Deletions are complete, exact and reported once, whatever runs between their stages. -/
namespace Seaturtle.DeletionRuns
open CookieRuns (PlainCookie plainStore plainUrls exampleUrl)

variable {Cookie Instance : Type} {lib : UrlLibrary} {cs : CookieStore Cookie}
  {identity : Cookie → Instance} {matched : Deletion → Instance → Bool}

/-- A deletion on one store leaves the cookies that do not match, and its callback gets
the number of those that it removed. -/
structure Deletes (cs : CookieStore Cookie) (identity : Cookie → Instance)
    (matched : Deletion → Instance → Bool) : Prop where
  left : ∀ now d cookies,
    (deleteOn cs now d cookies).2 = cookies.filter fun c => !matched d (identity c)
  count : ∀ now d cookies,
    (deleteOn cs now d cookies).1 = cookies.length - (deleteOn cs now d cookies).2.length

/-- Beside that, deleting one cookie by its name leaves no instance that was not there. -/
structure DeletesOnly (cs : CookieStore Cookie) (identity : Cookie → Instance)
    (matched : Deletion → Instance → Bool) : Prop extends Deletes cs identity matched where
  named : ∀ now url cookieName cookies,
    ∀ x ∈ ((cs.deleteCookie now url cookieName cookies).2.map identity), x ∈ cookies.map identity

/-- What a Set or a Get leaves in a store was there before, or has been created by it: no
store has held it yet. -/
def CreatesFresh (lib : UrlLibrary) (cs : CookieStore Cookie) (identity : Cookie → Instance)
    (s : Staged Cookie Instance) : Event → Prop
  | .call c => ∀ b, ∀ x ∈ instancesIn identity (CookieRuns.onSplit lib cs s.store c).2 b,
      x ∈ instancesIn identity s.store b ∨ x ∉ s.issued
  | _ => True

instance [DecidableEq Instance] (s : Staged Cookie Instance) (e : Event) :
    Decidable (CreatesFresh lib cs identity s e) := by
  cases e with
  | call c =>
    have both (P : Backing → Prop) : (∀ b, P b) ↔ P .transient ∧ P .persistant :=
      ⟨fun all => ⟨all _, all _⟩, fun h b => by cases b; exacts [h.1, h.2]⟩
    exact decidable_of_iff' _ (both _)
  | _ => exact .isTrue trivial

def waiting {Bound : Type} (tasks : List (Task Bound)) (i : Nat) : List (Deletion × Bound) :=
  tasks.filterMap fun
    | .deleteCookie _ _ => none
    | .delete call d bound => if call = i then some (d, bound) else none

def reports (log : List (Nat × Report)) (i : Nat) : List Report :=
  log.filterMap fun r => if r.1 = i then some r.2 else none

/-- No stage of the call waits for a store. -/
def Idle (s : Staged Cookie Instance) (i : Nat) : Prop :=
  waiting s.onTransient i = [] ∧ waiting s.onPersistant i = []

instance (s : Staged Cookie Instance) (i : Nat) : Decidable (Idle s i) :=
  inferInstanceAs (Decidable (_ ∧ _))

/-- No instance that matches, of those that the call found, is in the store. -/
def Swept (identity : Cookie → Instance) (matched : Deletion → Instance → Bool)
    (s : Staged Cookie Instance) (c : DeletionCall Instance) (b : Backing) : Prop :=
  ∀ x ∈ c.instances, matched c.deletion x = true → x ∉ instancesIn identity s.store b

/-- Both stages have run, then the callback once with the sum of what they removed, and
no matching instance that either store had at the call is in either now. -/
structure Complete (identity : Cookie → Instance) (matched : Deletion → Instance → Bool)
    (s : Staged Cookie Instance) (i : Nat) (c : DeletionCall Instance) : Prop where
  reported : ∃ m n, reports s.log i =
    [.swept .transient m, .swept .persistant n, .finished (m + n)]
  gone : ∀ b, Swept identity matched s c b

/-- Where a call is: the stage that waits, and what has been seen of it. -/
inductive Phase (identity : Cookie → Instance) (matched : Deletion → Instance → Bool)
    (s : Staged Cookie Instance) (i : Nat) : Option (DeletionCall Instance) → Prop
  | unmade (idle : Idle s i) (log : reports s.log i = []) : Phase identity matched s i none
  | requested (c : DeletionCall Instance)
      (transient : waiting s.onTransient i = [(c.deletion, ())])
      (persistant : waiting s.onPersistant i = []) (log : reports s.log i = []) :
      Phase identity matched s i (some c)
  | swept (c : DeletionCall Instance) (m : Nat) (transient : waiting s.onTransient i = [])
      (persistant : waiting s.onPersistant i = [(c.deletion, m)])
      (log : reports s.log i = [.swept .transient m])
      (gone : Swept identity matched s c .transient) : Phase identity matched s i (some c)
  | finished (c : DeletionCall Instance) (idle : Idle s i)
      (complete : Complete identity matched s i c) : Phase identity matched s i (some c)

structure Accounted (identity : Cookie → Instance) (matched : Deletion → Instance → Bool)
    (s : Staged Cookie Instance) : Prop where
  stores : ∀ b, ∀ x ∈ instancesIn identity s.store b, x ∈ s.issued
  found : ∀ c ∈ s.calls, ∀ x ∈ c.instances, x ∈ s.issued
  phase : ∀ i, Phase identity matched s i s.calls[i]?

/-! Tasks and reports. -/

section lists
variable {Bound : Type} {tasks : List (Task Bound)} {task : Task Bound} {i : Nat}

@[simp] theorem waiting_append (new : List (Task Bound)) :
    waiting (tasks ++ new) i = waiting tasks i ++ waiting new i := List.filterMap_append ..

@[simp] theorem waiting_nil : waiting ([] : List (Task Bound)) i = [] := rfl

@[simp] theorem waiting_deleteCookie (url : Gurl) (cookieName : Str) :
    waiting [(.deleteCookie url cookieName : Task Bound)] i = [] := rfl

@[simp] theorem waiting_delete (call : Nat) (d : Deletion) (bound : Bound) :
    waiting [.delete call d bound] i = if call = i then [(d, bound)] else [] := by
  by_cases this : call = i
  · simp [waiting, this]
  · simp [waiting, this]

@[simp] theorem reports_append (log new : List (Nat × Report)) :
    reports (log ++ new) i = reports log i ++ reports new i := List.filterMap_append ..

@[simp] theorem reports_nil : reports [] i = [] := rfl

@[simp] theorem reports_cons (r : Nat × Report) (log : List (Nat × Report)) :
    reports (r :: log) i = (if r.1 = i then [r.2] else []) ++ reports log i := by
  by_cases this : r.1 = i
  · simp [reports, this]
  · simp [reports, this]

theorem delete_foreign {call : Nat} {d : Deletion} {bound : Bound}
    (other : waiting [.delete call d bound] i = []) : call ≠ i := by
  rintro rfl
  simp at other

theorem waiting_cases (task : Task Bound) (i : Nat) :
    waiting [task] i = [] ∨ ∃ d bound, task = .delete i d bound := by
  cases task with
  | deleteCookie url cookieName => exact .inl rfl
  | delete call d bound =>
    by_cases own : call = i
    · exact .inr ⟨d, bound, congrArg (Task.delete · d bound) own⟩
    · left
      rw [waiting_delete, if_neg own]

theorem waiting_cons : waiting (task :: tasks) i = waiting [task] i ++ waiting tasks i :=
  show waiting ([task] ++ tasks) i = _ from waiting_append tasks

theorem waiting_mem {x : Deletion × Bound} (member : task ∈ tasks)
    (own : waiting [task] i = [x]) : waiting tasks i ≠ [] := by
  intro none
  have all := List.filterMap_eq_nil_iff.mp none task member
  simp [waiting, all] at own

theorem waiting_single {x : Deletion × Bound} (single : waiting tasks i = [x]) :
    .delete i x.1 x.2 ∈ tasks := by
  have member : x ∈ waiting tasks i := by simp [single]
  obtain ⟨task, listed, own⟩ := List.mem_filterMap.mp member
  cases task with
  | deleteCookie url cookieName => cases own
  | delete call d bound =>
    simp only [Option.ite_none_right_eq_some, Option.some.injEq] at own
    obtain ⟨rfl, rfl⟩ := own
    exact listed

variable [DecidableEq Bound]

/-- A task of another call, or of none, leaves those of the call as they were. -/
theorem waiting_other (other : waiting [task] i = []) :
    waiting (tasks.erase task) i = waiting tasks i := by
  induction tasks with
  | nil => rfl
  | cons first rest ih =>
    by_cases same : first = task
    · subst same
      rw [List.erase_cons_head, waiting_cons, other, List.nil_append]
    · have kept : (first :: rest).erase task = first :: rest.erase task := by simp [same]
      rw [kept, waiting_cons, ih, ← waiting_cons]

/-- Running the one task of the call leaves none. -/
theorem waiting_own {x y : Deletion × Bound} (member : task ∈ tasks)
    (own : waiting [task] i = [x]) (single : waiting tasks i = [y]) :
    x = y ∧ waiting (tasks.erase task) i = [] := by
  have split := (List.perm_cons_erase member).filterMap fun
    | .deleteCookie _ _ => none
    | .delete call d bound => if call = i then some (d, bound) else none
  have parts : [y].Perm (x :: waiting (tasks.erase task) i) := by
    rw [← single, ← List.singleton_append, ← own, ← waiting_cons]
    exact split
  have whole := List.singleton_perm.mp parts
  simp only [List.cons.injEq] at whole
  exact ⟨whole.1.symm, whole.2.symm⟩

end lists

/-! What the steps do to the stores. -/

variable {s s' : Staged Cookie Instance} {i : Nat}

/-- An instance that comes into a store is one that none has held yet. -/
def Follows (identity : Cookie → Instance) (s s' : Staged Cookie Instance) : Prop :=
  ∀ b, ∀ x ∈ instancesIn identity s'.store b, x ∈ instancesIn identity s.store b ∨ x ∉ s.issued

theorem mem_instances {store : SplitCookieStore Cookie} {x : Instance} :
    x ∈ instances identity store ↔ ∃ b, x ∈ instancesIn identity store b := by
  rw [instances, List.mem_append]
  constructor
  · rintro (first | second)
    · exact ⟨.transient, first⟩
    · exact ⟨.persistant, second⟩
  · rintro ⟨b, member⟩
    cases b with
    | transient => exact .inl member
    | persistant => exact .inr member

theorem follows_fewer (fewer : ∀ b, ∀ x ∈ instancesIn identity s'.store b,
    x ∈ instancesIn identity s.store b) : Follows identity s s' :=
  fun b x member => .inl (fewer b x member)

theorem transient_fewer (op : List Cookie → List Cookie)
    (fewer : ∀ x ∈ (op s.store.transient).map identity, x ∈ s.store.transient.map identity)
    (here : s'.store = { s.store with transient := op s.store.transient }) :
    Follows identity s s' := by
  apply follows_fewer
  intro b x member
  rw [here] at member
  cases b with
  | transient => exact fewer x member
  | persistant => exact member

theorem persistant_fewer (op : List Cookie → List Cookie)
    (fewer : ∀ x ∈ (op s.store.persistant).map identity, x ∈ s.store.persistant.map identity)
    (here : s'.store = { s.store with persistant := op s.store.persistant }) :
    Follows identity s s' := by
  apply follows_fewer
  intro b x member
  rw [here] at member
  cases b with
  | transient => exact member
  | persistant => exact fewer x member

theorem deleteOn_fewer (deletes : Deletes cs identity matched) (now : Time) (d : Deletion)
    (cookies : List Cookie) :
    ∀ x ∈ (deleteOn cs now d cookies).2.map identity, x ∈ cookies.map identity := by
  intro x member
  rw [deletes.left] at member
  obtain ⟨cookie, stayed, rfl⟩ := List.mem_map.mp member
  exact List.mem_map_of_mem (List.mem_filter.mp stayed).1

/-- Nothing that matches is in a store right after its sweep. -/
theorem deleteOn_sweeps (deletes : Deletes cs identity matched) (now : Time) (d : Deletion)
    (cookies : List Cookie) {x : Instance} (matches_ : matched d x = true) :
    x ∉ (deleteOn cs now d cookies).2.map identity := by
  intro member
  rw [deletes.left] at member
  obtain ⟨cookie, stayed, rfl⟩ := List.mem_map.mp member
  simp [matches_] at stayed

theorem persistantDelete_eq (cs : CookieStore Cookie) (store : SplitCookieStore Cookie) (now : Time)
    (alreadyDeleted : Nat) (d : Deletion) :
    persistantDelete cs store now alreadyDeleted d =
      (alreadyDeleted + (deleteOn cs now d store.persistant).1,
        { store with persistant := (deleteOn cs now d store.persistant).2 }) := by
  cases d <;> rfl

theorem transientStage_follows (deletes : DeletesOnly cs identity matched) (now : Time)
    (task : Task Unit) : Follows identity s (transientStage cs identity s now task) := by
  cases task with
  | deleteCookie url cookieName =>
    exact transient_fewer (fun cookies => (cs.deleteCookie now url cookieName cookies).2)
      (deletes.named now url cookieName _) rfl
  | delete call d bound =>
    exact transient_fewer (fun cookies => (deleteOn cs now d cookies).2)
      (deleteOn_fewer deletes.toDeletes now d _) rfl

theorem persistantStage_follows (deletes : DeletesOnly cs identity matched) (now : Time)
    (task : Task Nat) : Follows identity s (persistantStage cs identity s now task) := by
  cases task with
  | deleteCookie url cookieName =>
    exact persistant_fewer (fun cookies => (cs.deleteCookie now url cookieName cookies).2)
      (deletes.named now url cookieName _) rfl
  | delete call d alreadyDeleted =>
    apply persistant_fewer (fun cookies => (deleteOn cs now d cookies).2)
      (deleteOn_fewer deletes.toDeletes now d _)
    simp only [persistantStage, persistantDelete_eq]
    rfl

theorem step_follows (deletes : DeletesOnly cs identity matched) {e : Event}
    (fresh : CreatesFresh lib cs identity s e) (taken : step lib cs identity s e = some s') :
    Follows identity s s' := by
  cases e with
  | call c =>
    simp only [step, Option.ite_none_right_eq_some, Option.some.injEq] at taken
    obtain ⟨_, rfl⟩ := taken
    exact fresh
  | updateFavorites update =>
    -- the favorites change, and no cookie goes to the other store
    obtain ⟨store, updated, rfl⟩ := Option.map_eq_some_iff.mp taken
    obtain ⟨persistant, transient⟩ := CookieRuns.updateFavorites_stores updated
    apply follows_fewer
    intro b x member
    cases b with
    | transient =>
      change x ∈ store.transient.map identity at member
      rwa [transient] at member
    | persistant =>
      change x ∈ store.persistant.map identity at member
      rwa [persistant] at member
  | deleteCookie url cookieName =>
    cases taken
    exact follows_fewer fun b x member => member
  | delete d =>
    cases taken
    exact follows_fewer fun b x member => member
  | runTransient now task =>
    simp only [step, Option.ite_none_right_eq_some, Option.some.injEq] at taken
    obtain ⟨_, rfl⟩ := taken
    exact transientStage_follows deletes now task
  | runPersistant now task =>
    simp only [step, Option.ite_none_right_eq_some, Option.some.injEq] at taken
    obtain ⟨_, rfl⟩ := taken
    exact persistantStage_follows deletes now task

/-! What they do to the record. -/

/-- The calls stay as they are recorded; a new one comes last. -/
structure Records (identity : Cookie → Instance) (s s' : Staged Cookie Instance) : Prop where
  issued : ∀ x ∈ s.issued, x ∈ s'.issued
  stores : (∀ b, ∀ x ∈ instancesIn identity s'.store b, x ∈ s'.issued) ∨
    s'.store = s.store
  calls : s'.calls = s.calls ∨ ∃ d, s'.calls = s.calls ++ [⟨d, instances identity s.store⟩]

theorem observed_records {t : Staged Cookie Instance} {store : SplitCookieStore Cookie}
    (stored : t.store = store) (issued : t.issued = s.issued ++ instances identity store)
    (calls : t.calls = s.calls) : Records identity s t := by
  refine ⟨fun x member => ?_, .inl fun b x member => ?_, .inl calls⟩
  · rw [issued]
    exact List.mem_append_left _ member
  · rw [stored] at member
    rw [issued]
    exact List.mem_append_right _ (mem_instances.mpr ⟨b, member⟩)

theorem step_records {e : Event} (taken : step lib cs identity s e = some s') :
    Records identity s s' := by
  cases e with
  | call c =>
    simp only [step, Option.ite_none_right_eq_some, Option.some.injEq] at taken
    obtain ⟨_, rfl⟩ := taken
    exact observed_records rfl rfl rfl
  | updateFavorites update =>
    obtain ⟨store, _, rfl⟩ := Option.map_eq_some_iff.mp taken
    exact observed_records rfl rfl rfl
  | deleteCookie url cookieName =>
    cases taken
    exact ⟨fun _ member => member, .inr rfl, .inl rfl⟩
  | delete d =>
    cases taken
    exact ⟨fun _ member => member, .inr rfl, .inr ⟨d, rfl⟩⟩
  | runTransient now task =>
    simp only [step, Option.ite_none_right_eq_some, Option.some.injEq] at taken
    obtain ⟨_, rfl⟩ := taken
    cases task with
    | deleteCookie url cookieName => exact observed_records rfl rfl rfl
    | delete call d bound => exact observed_records rfl rfl rfl
  | runPersistant now task =>
    simp only [step, Option.ite_none_right_eq_some, Option.some.injEq] at taken
    obtain ⟨_, rfl⟩ := taken
    cases task with
    | deleteCookie url cookieName => exact observed_records rfl rfl rfl
    | delete call d alreadyDeleted => exact observed_records rfl rfl rfl

theorem swept_kept {c : DeletionCall Instance} {b : Backing} (follows : Follows identity s s')
    (found : ∀ x ∈ c.instances, x ∈ s.issued) (swept : Swept identity matched s c b) :
    Swept identity matched s' c b := by
  intro x member matches_ back
  rcases follows b x back with before | new
  · exact swept x member matches_ before
  · exact new (found x member)

theorem phase_kept {o : Option (DeletionCall Instance)} (h : Phase identity matched s i o)
    (found : ∀ c ∈ o, ∀ x ∈ c.instances, x ∈ s.issued) (follows : Follows identity s s')
    (transient : waiting s'.onTransient i = waiting s.onTransient i)
    (persistant : waiting s'.onPersistant i = waiting s.onPersistant i)
    (log : reports s'.log i = reports s.log i) : Phase identity matched s' i o := by
  have idle (h : Idle s i) : Idle s' i := ⟨transient.trans h.1, persistant.trans h.2⟩
  cases h with
  | unmade here none => exact .unmade (idle here) (log.trans none)
  | requested c first second none =>
    exact .requested c (transient.trans first) (persistant.trans second) (log.trans none)
  | swept c m first second once gone =>
    exact .swept c m (transient.trans first) (persistant.trans second) (log.trans once)
      (swept_kept follows (found c rfl) gone)
  | finished c here complete =>
    obtain ⟨⟨m, n, reported⟩, gone⟩ := complete
    exact .finished c (idle here) ⟨⟨m, n, log.trans reported⟩,
      fun b => swept_kept follows (found c rfl) (gone b)⟩

theorem Accounted.foundAt (h : Accounted identity matched s) (i : Nat) :
    ∀ c ∈ s.calls[i]?, ∀ x ∈ c.instances, x ∈ s.issued :=
  fun c called => h.found c (List.mem_of_getElem? called)

/-! The phases of the calls, one step on. -/

theorem delete_phase (h : Accounted identity matched s) (d : Deletion) (i : Nat)
    (run : s' = { s with
      onTransient := s.onTransient ++ [.delete s.calls.length d ()]
      calls := s.calls ++ [⟨d, instances identity s.store⟩] }) :
    Phase identity matched s' i s'.calls[i]? := by
  have before := h.phase i
  have follows : Follows identity s s' := by
    rw [run]
    exact follows_fewer fun b x member => member
  by_cases this : s.calls.length = i
  · subst this run
    simp only [List.getElem?_eq_none (Nat.le_refl _)] at before
    cases before with
    | unmade idle none =>
      simp only [List.getElem?_concat_length]
      exact .requested _ (by simp [idle.1]) idle.2 none
  · have same : s'.calls[i]? = s.calls[i]? := by
      rw [run]
      rcases Nat.lt_or_gt_of_ne this with above | below
      · rw [List.getElem?_eq_none (by simp; omega), List.getElem?_eq_none (by omega)]
      · exact List.getElem?_append_left below
    rw [same]
    exact phase_kept before (h.foundAt i) follows (by simp [run, this]) (by rw [run]) (by rw [run])

theorem phase_idle {c : DeletionCall Instance} (h : Phase identity matched s i (some c))
    (idle : Idle s i) : Complete identity matched s i c := by
  cases h with
  | requested _ first => simp [idle.1] at first
  | swept _ m _ second => simp [idle.2] at second
  | finished _ _ complete => exact complete

theorem phase_busy {c : DeletionCall Instance} (h : Phase identity matched s i (some c))
    (busy : ¬ Idle s i) (n : Nat) : .finished n ∉ reports s.log i := by
  cases h with
  | requested _ _ _ none => simp [none]
  | swept _ m _ _ once => simp [once]
  | finished _ idle => exact absurd idle busy

theorem transientStage_calls (now : Time) (task : Task Unit) :
    (transientStage cs identity s now task).calls = s.calls := by
  cases task <;> rfl

theorem persistantStage_calls (now : Time) (task : Task Nat) :
    (persistantStage cs identity s now task).calls = s.calls := by
  cases task <;> rfl

theorem transientStage_other {task : Task Unit} (h : Accounted identity matched s)
    (deletes : DeletesOnly cs identity matched) (now : Time) (other : waiting [task] i = [])
    (run : s' = transientStage cs identity { s with onTransient := s.onTransient.erase task }
      now task) : Phase identity matched s' i s'.calls[i]? := by
  have follows : Follows identity s s' := by
    rw [run]
    exact transientStage_follows (s := { s with onTransient := s.onTransient.erase task }) deletes
      now task
  rw [run, transientStage_calls, ← run]
  apply phase_kept (h.phase i) (h.foundAt i) follows
  all_goals rw [run]
  · cases task with
    | deleteCookie url cookieName => exact waiting_other other
    | delete call d bound => exact waiting_other other
  · cases task with
    | deleteCookie url cookieName => simp [transientStage, observe]
    | delete call d bound =>
      have foreign := delete_foreign other
      simp [transientStage, observe, foreign]
  · cases task with
    | deleteCookie url cookieName => rfl
    | delete call d bound =>
      have foreign := delete_foreign other
      simp [transientStage, observe, foreign]

theorem transientStage_own (deletes : Deletes cs identity matched) {d : Deletion}
    (h : Phase identity matched s i s.calls[i]?) (now : Time)
    (member : .delete i d () ∈ s.onTransient)
    (run : s' = transientStage cs identity
      { s with onTransient := s.onTransient.erase (.delete i d ()) } now (.delete i d ())) :
    Phase identity matched s' i s'.calls[i]? := by
  have own : waiting [(.delete i d () : Task Unit)] i = [(d, ())] := by simp
  have busy := waiting_mem member own
  rw [run, transientStage_calls, ← run]
  generalize s.calls[i]? = o at h ⊢
  cases h with
  | unmade idle => exact absurd idle.1 busy
  | swept c m first => exact absurd first busy
  | finished c idle => exact absurd idle.1 busy
  | requested c first second none =>
    obtain ⟨same, last⟩ := waiting_own member own first
    cases same
    subst run
    refine .swept _ (deleteOn cs now c.deletion s.store.transient).1 last ?_ ?_ ?_
    · simp [transientStage, second, SplitCookieStore.onTransient, observe]
    · simp [transientStage, none, observe, SplitCookieStore.onTransient, deletes.count]
    · exact fun x _ matches_ => deleteOn_sweeps deletes now c.deletion s.store.transient matches_

theorem persistantStage_other {task : Task Nat} (h : Accounted identity matched s)
    (deletes : DeletesOnly cs identity matched) (now : Time) (other : waiting [task] i = [])
    (run : s' = persistantStage cs identity { s with onPersistant := s.onPersistant.erase task }
      now task) : Phase identity matched s' i s'.calls[i]? := by
  have follows : Follows identity s s' := by
    rw [run]
    exact persistantStage_follows (s := { s with onPersistant := s.onPersistant.erase task })
      deletes now task
  rw [run, persistantStage_calls, ← run]
  apply phase_kept (h.phase i) (h.foundAt i) follows
  all_goals rw [run]
  · cases task <;> rfl
  · cases task with
    | deleteCookie url cookieName => exact waiting_other other
    | delete call d alreadyDeleted => exact waiting_other other
  · cases task with
    | deleteCookie url cookieName => rfl
    | delete call d alreadyDeleted =>
      have foreign := delete_foreign other
      simp [persistantStage, observe, foreign]

theorem persistantStage_own (deletes : Deletes cs identity matched) {d : Deletion}
    {alreadyDeleted : Nat} (h : Accounted identity matched s) (now : Time)
    (member : .delete i d alreadyDeleted ∈ s.onPersistant)
    (run : s' = persistantStage cs identity
      { s with onPersistant := s.onPersistant.erase (.delete i d alreadyDeleted) } now
        (.delete i d alreadyDeleted)) : Phase identity matched s' i s'.calls[i]? := by
  have own : waiting [(.delete i d alreadyDeleted : Task Nat)] i = [(d, alreadyDeleted)] := by simp
  have busy := waiting_mem member own
  have phase := h.phase i
  rw [run, persistantStage_calls, ← run]
  generalize s.calls[i]? = o at phase ⊢
  cases phase with
  | unmade idle => exact absurd idle.2 busy
  | requested c _ second => exact absurd second busy
  | finished c idle => exact absurd idle.2 busy
  | swept c m first second once gone =>
    obtain ⟨same, last⟩ := waiting_own member own second
    cases same
    subst run
    have store := persistantDelete_eq cs s.store now alreadyDeleted c.deletion
    refine .finished _ ⟨first, last⟩
      ⟨⟨alreadyDeleted, (deleteOn cs now c.deletion s.store.persistant).1, ?_⟩, fun b => ?_⟩
    · simp [persistantStage, store, once, observe, deletes.count]
    · intro x found matches_
      simp only [persistantStage, store, observe]
      cases b with
      | transient => exact gone x found matches_
      | persistant => exact deleteOn_sweeps deletes now c.deletion s.store.persistant matches_

theorem step_phase (deletes : DeletesOnly cs identity matched) (h : Accounted identity matched s)
    {e : Event} (fresh : CreatesFresh lib cs identity s e)
    (taken : step lib cs identity s e = some s') (i : Nat) :
    Phase identity matched s' i s'.calls[i]? := by
  have follows := step_follows deletes fresh taken
  cases e with
  | call c =>
    simp only [step, Option.ite_none_right_eq_some, Option.some.injEq] at taken
    obtain ⟨_, rfl⟩ := taken
    exact phase_kept (h.phase i) (h.foundAt i) follows rfl rfl rfl
  | updateFavorites update =>
    obtain ⟨store, _, rfl⟩ := Option.map_eq_some_iff.mp taken
    exact phase_kept (h.phase i) (h.foundAt i) follows rfl rfl rfl
  | deleteCookie url cookieName =>
    cases taken
    exact phase_kept (h.phase i) (h.foundAt i) follows (by simp) rfl rfl
  | delete d => exact delete_phase h d i (Option.some.inj taken).symm
  | runTransient now task =>
    simp only [step, Option.ite_none_right_eq_some, Option.some.injEq] at taken
    obtain ⟨member, run⟩ := taken
    rcases waiting_cases task i with other | ⟨d, _, rfl⟩
    · exact transientStage_other h deletes now other run.symm
    · exact transientStage_own deletes.toDeletes (h.phase i) now member run.symm
  | runPersistant now task =>
    simp only [step, Option.ite_none_right_eq_some, Option.some.injEq] at taken
    obtain ⟨member, run⟩ := taken
    rcases waiting_cases task i with other | ⟨d, alreadyDeleted, rfl⟩
    · exact persistantStage_other h deletes now other run.symm
    · exact persistantStage_own deletes.toDeletes h now member run.symm

theorem step_accounted (deletes : DeletesOnly cs identity matched)
    (h : Accounted identity matched s) {e : Event} (fresh : CreatesFresh lib cs identity s e)
    (taken : step lib cs identity s e = some s') : Accounted identity matched s' := by
  have records := step_records taken
  refine ⟨fun b x member => ?_, fun c called x found => ?_, step_phase deletes h fresh taken⟩
  · rcases records.stores with observed | same
    · exact observed b x member
    · rw [same] at member
      exact records.issued x (h.stores b x member)
  · apply records.issued
    rcases records.calls with same | ⟨d, one_more⟩
    · exact h.found c (same ▸ called) x found
    · rw [one_more, List.mem_append, List.mem_singleton] at called
      rcases called with old | rfl
      · exact h.found c old x found
      · obtain ⟨b, member⟩ := mem_instances.mp found
        exact h.stores b x member

/-! Whole runs. -/

/-- Every Set and Get of the run creates fresh instances only. -/
abbrev FreshRun (lib : UrlLibrary) (cs : CookieStore Cookie) (identity : Cookie → Instance)
    (store : SplitCookieStore Cookie) (es : List Event) : Prop :=
  Runs.Along (step lib cs identity) (fun s e _ => CreatesFresh lib cs identity s e)
    (initial identity store) es

theorem run_accounted (deletes : DeletesOnly cs identity matched) {store : SplitCookieStore Cookie}
    {es : List Event} (fresh : FreshRun lib cs identity store es)
    (reached : Runs.run (step lib cs identity) (initial identity store) es = some s) :
    Accounted identity matched s := by
  have start : Accounted identity matched (initial identity store) :=
    ⟨fun b x member => mem_instances.mpr ⟨b, member⟩, fun c none => (List.not_mem_nil none).elim,
      fun i => .unmade ⟨rfl, rfl⟩ rfl⟩
  apply Runs.invariant_along start _ fresh reached
  intro s e s' h taken meets
  exact step_accounted deletes h meets taken

/-- The event runs a stage that waits for its store. -/
def Event.runsStage : Event → Bool
  | .runTransient _ _ => true
  | .runPersistant _ _ => true
  | _ => false

variable (lib) in
theorem transient_moves (deletes : DeletesOnly cs identity matched)
    (h : Accounted identity matched s) {c : DeletionCall Instance} (called : s.calls[i]? = some c)
    (first : waiting s.onTransient i = [(c.deletion, ())]) :
    ∃ t, step lib cs identity s (.runTransient 0 (.delete i c.deletion ())) = some t ∧
      Accounted identity matched t ∧ t.calls[i]? = some c ∧ waiting t.onTransient i = [] := by
  have member := waiting_single first
  have taken : step lib cs identity s (.runTransient 0 (.delete i c.deletion ())) = some _ :=
    if_pos member
  have own : waiting [(.delete i c.deletion () : Task Unit)] i = [(c.deletion, ())] := by simp
  have fresh : CreatesFresh lib cs identity s (.runTransient 0 (.delete i c.deletion ())) := trivial
  exact ⟨_, taken, step_accounted deletes h fresh taken, called,
    (waiting_own member own first).2⟩

variable (lib) in
theorem persistant_moves (deletes : DeletesOnly cs identity matched)
    (h : Accounted identity matched s) {c : DeletionCall Instance} {m : Nat}
    (called : s.calls[i]? = some c) (first : waiting s.onTransient i = [])
    (second : waiting s.onPersistant i = [(c.deletion, m)]) :
    ∃ t, step lib cs identity s (.runPersistant 0 (.delete i c.deletion m)) = some t ∧
      Accounted identity matched t ∧ t.calls[i]? = some c ∧ Idle t i := by
  have member := waiting_single second
  have taken : step lib cs identity s (.runPersistant 0 (.delete i c.deletion m)) = some _ :=
    if_pos member
  have own : waiting [(.delete i c.deletion m : Task Nat)] i = [(c.deletion, m)] := by simp
  have fresh : CreatesFresh lib cs identity s (.runPersistant 0 (.delete i c.deletion m)) := trivial
  exact ⟨_, taken, step_accounted deletes h fresh taken, called, first,
    (waiting_own member own second).2⟩

/-- The stages that are left of a call can run, and then it is complete. -/
def Finishes (lib : UrlLibrary) (cs : CookieStore Cookie) (identity : Cookie → Instance)
    (matched : Deletion → Instance → Bool) (s : Staged Cookie Instance) (i : Nat)
    (c : DeletionCall Instance) : Prop :=
  ∃ es t, (∀ e ∈ es, Event.runsStage e = true) ∧
    Runs.run (step lib cs identity) s es = some t ∧ Complete identity matched t i c

variable (lib) in
theorem swept_finishes (deletes : DeletesOnly cs identity matched)
    (h : Accounted identity matched s) {c : DeletionCall Instance} {m : Nat}
    (called : s.calls[i]? = some c) (first : waiting s.onTransient i = [])
    (second : waiting s.onPersistant i = [(c.deletion, m)]) :
    Finishes lib cs identity matched s i c := by
  obtain ⟨t, taken, accounted, called', idle⟩ := persistant_moves lib deletes h called first second
  have phase := accounted.phase i
  rw [called'] at phase
  exact ⟨[.runPersistant 0 (.delete i c.deletion m)], t, by simp [Event.runsStage],
    by simp [taken], phase_idle phase idle⟩

theorem call_finishes (deletes : DeletesOnly cs identity matched)
    (h : Accounted identity matched s) {c : DeletionCall Instance}
    (called : s.calls[i]? = some c) : Finishes lib cs identity matched s i c := by
  have phase := h.phase i
  rw [called] at phase
  cases phase with
  | finished _ idle complete => exact ⟨[], s, by simp, rfl, complete⟩
  | swept _ m first second => exact swept_finishes lib deletes h called first second
  | requested _ first =>
    obtain ⟨t, taken, accounted, called', swept⟩ := transient_moves lib deletes h called first
    have phase := accounted.phase i
    rw [called'] at phase
    cases phase with
    | requested _ waits => simp [swept] at waits
    | finished _ _ complete =>
      exact ⟨[.runTransient 0 (.delete i c.deletion ())], t, by simp [Event.runsStage],
        by simp [taken], complete⟩
    | swept _ m first second =>
      obtain ⟨es, u, runs, reached, complete⟩ :=
        swept_finishes lib deletes accounted called' first second
      refine ⟨.runTransient 0 (.delete i c.deletion ()) :: es, u, ?_, by simp [taken, reached],
        complete⟩
      simpa [Event.runsStage] using runs

/-- In every state of every run: a call with a stage to run has not been answered, and it
can be run to its end; a call without one is complete, its callback has run once with the
exact number, and no matching instance that was in either store at the call is in one now. -/
theorem deletion_complete_exact_once (deletes : DeletesOnly cs identity matched)
    {store : SplitCookieStore Cookie} {es : List Event} (fresh : FreshRun lib cs identity store es)
    (reached : Runs.run (step lib cs identity) (initial identity store) es = some s)
    {c : DeletionCall Instance} (called : s.calls[i]? = some c) :
    (Idle s i → Complete identity matched s i c) ∧
      (¬ Idle s i → ∀ n, .finished n ∉ reports s.log i) ∧
      Finishes lib cs identity matched s i c := by
  have h := run_accounted deletes fresh reached
  have phase := h.phase i
  rw [called] at phase
  exact ⟨phase_idle phase, phase_busy phase, call_finishes deletes h called⟩

def plainMatched : Deletion → PlainCookie → Bool
  | .createdBetween b e => (·.createdBetween b e)
  | .createdBetweenForHost b e url => fun c => c.host == url.host && c.createdBetween b e
  | .sessionCookies => fun _ => true

theorem countP_eq_removed {α : Type} (p : α → Bool) (xs : List α) :
    xs.countP p = xs.length - (xs.filter (!p ·)).length := by
  have parts : xs.length = xs.countP p + xs.countP fun x => !p x := by
    simpa using List.length_eq_countP_add_countP p
  rw [← List.countP_eq_length_filter]
  omega

theorem plainStore_deletes : DeletesOnly plainStore id plainMatched := by
  refine ⟨⟨?_, ?_⟩, ?_⟩
  · intro now d cookies
    cases d <;> rfl
  · intro now d cookies
    cases d
    all_goals exact countP_eq_removed _ cookies
  · intro now url cookieName cookies x member
    rw [List.map_id] at member ⊢
    exact (List.mem_filter.mp member).1

/-- The site of the cookies becomes a favorite between the stages, and gets another cookie. -/
def favoriteBetweenStages : List Event :=
  [.call (.setCookieWithOptions 1 exampleUrl "c=1".toList {}),
    .delete (.createdBetween 0 9), .runTransient 2 (.delete 0 (.createdBetween 0 9) ()),
    .updateFavorites ⟨["http://a.com/".toList]⟩,
    .call (.setCookieWithOptions 3 exampleUrl "c=2".toList {}),
    .call (.setCookieWithOptions 4 exampleUrl "d=3".toList {}),
    .runPersistant 5 (.delete 0 (.createdBetween 0 9) 1)]

theorem deletion_complete_exact_once_between :
    ∃ s c, Runs.run (step plainUrls plainStore id)
        (initial id (CookieRuns.initial ∅)) favoriteBetweenStages = some s ∧
      s.calls[0]? = some c ∧ c.instances.map (·.value) = ["1".toList] ∧ reports s.log 0 =
        [.swept .transient 1, .swept .persistant 2, .finished 3] ∧
      Complete id plainMatched s 0 c := by
  have seen : (Runs.run (step plainUrls plainStore id) (initial id (CookieRuns.initial ∅))
      favoriteBetweenStages).map (fun s => (reports s.log 0, decide (Idle s 0),
        (s.calls[0]?.map fun c => c.instances.map (·.value)))) =
      some ([.swept .transient 1, .swept .persistant 2, .finished 3], true,
        some ["1".toList]) := by
    decide +kernel
  have fresh : FreshRun plainUrls plainStore id (CookieRuns.initial ∅) favoriteBetweenStages := by
    decide +kernel
  obtain ⟨s, reached, last⟩ := Option.map_eq_some_iff.mp seen
  simp only [Prod.mk.injEq, decide_eq_true_eq] at last
  obtain ⟨log, idle, called⟩ := last
  obtain ⟨c, called, values⟩ := Option.map_eq_some_iff.mp called
  have complete := (deletion_complete_exact_once plainStore_deletes fresh reached called).1
  exact ⟨s, c, reached, called, values, log, complete idle⟩

end Seaturtle.DeletionRuns
