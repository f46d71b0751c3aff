import Seaturtle.Lib.Runs
import Seaturtle.RuleFiles

/-! The child processes. Each gets a descriptor of the rule file when it is launched, and
reads its rules from it when it starts up; the file may have been written or replaced in the
meantime. -/
namespace Seaturtle.ChildProcesses
open RuleFiles

/-- The files that the names lead to, and their bytes. -/
structure Files where
  link : Str → Option Nat
  bytes : Nat → Str

namespace Files

/-- `File::Initialize` for reading; none where the file is not valid. -/
def openFile (files : Files) (path : Str) : Option Nat :=
  if path.isEmpty then none else files.link path

def write (files : Files) (file : Nat) (bytes : Str) : Files :=
  { files with bytes := fun f => if f = file then bytes else files.bytes f }

def rename (files : Files) (path : Str) (file : Option Nat) : Files :=
  { files with link := fun p => if p = path then file else files.link p }

end Files

/-- What happens when a file is read through: the chunks, a failure, and what was on the
stack before. -/
structure Reading where
  chunks : List Chunk
  error : Option ReadError := none
  buf : Buffer

namespace Reading

/-- The chunks are the bytes of the file, as far as it has been read. -/
def Of (r : Reading) (bytes : Str) : Prop :=
  if r.error.isNone then bytesRead r.chunks = bytes else bytesRead r.chunks <+: bytes

instance (r : Reading) (bytes : Str) : Decidable (r.Of bytes) := by
  unfold Of
  infer_instance

def results (r : Reading) : List ReadResult := reads r.chunks r.error

end Reading

variable {WebString : Type}

inductive Child (WebString : Type) where
  /-- Not started up yet; the file is behind `kSeaturtleBlockingDataDescriptor`. -/
  | launched (file : Nat)
  | running (blocker : BlockerSingleton WebString)
  | ended

structure State (WebString : Type) where
  files : Files
  browser : BlockerSingleton WebString := {}
  children : List (Child WebString) := []
  /-- The browser process has stopped at a `CHECK` or otherwise. -/
  fatal : Bool := false

inductive Event where
  | write (file : Nat) (bytes : Str)
  | rename (path : Str) (file : Option Nat)
  | updateBlockingRules (path : Str) (reading : Reading)
  | launch
  | startUp (child : Nat) (reading : Reading)
  | exit (child : Nat)

/-- What the processes run with: the path of the resource pak is the browser's. -/
structure Setup (WebString : Type) where
  platform : Platform
  pakFile : Str
  parseFromString : Str → Option Blocking.RuleList
  fromUTF8 : Str → WebString

variable (u : Setup WebString)

def getBlockingDataFd (files : Files) (b : BlockerSingleton WebString) : Except FileFatal Nat :=
  if b.filePath.isEmpty then .error .check
  else match files.openFile b.filePath with
    | none => .error .check
    | some file => .ok file

/-- The files of the pak and of the blocking data, whose descriptors the child gets. -/
def getAdditionalMappedFilesForChildProcess (files : Files) (b : BlockerSingleton WebString) :
    Except FileFatal (Nat × Nat) := do
  match files.openFile u.pakFile with
  | none => .error .check
  | some pak =>
    let blockingData ← getBlockingDataFd files b
    return (pak, blockingData)

/-- The blocker of a child; its pak is left out. -/
def initializeResourceBundle (reading : Reading) : Except FileFatal (BlockerSingleton WebString) :=
  ({} : BlockerSingleton WebString).updateRulesWithFd u.fromUTF8 u.parseFromString reading.buf
    u.platform (some reading.results)

def step (s : State WebString) (e : Event) : Option (State WebString) :=
  if s.fatal then none
  else match e with
    | .write file bytes => some { s with files := s.files.write file bytes }
    | .rename path file => some { s with files := s.files.rename path file }
    | .updateBlockingRules path reading =>
      if !(s.files.openFile path).all fun file => reading.Of (s.files.bytes file) then none
      else
        match s.browser.updateRulesWithPath u.fromUTF8 u.parseFromString reading.buf u.platform
            (fun path => (s.files.openFile path).map fun _ => reading.results) path with
        | .ok browser => some { s with browser }
        | .error _ => some { s with fatal := true }
    | .launch =>
      match getAdditionalMappedFilesForChildProcess u s.files s.browser with
      | .ok (_, blockingData) =>
        some { s with children := s.children ++ [.launched blockingData] }
      | .error _ => some { s with fatal := true }
    | .startUp child reading =>
      match s.children[child]? with
      | some (.launched file) =>
        if reading.Of (s.files.bytes file) then
          match initializeResourceBundle u reading with
          | .ok blocker => some { s with children := s.children.set child (.running blocker) }
          | .error _ => some { s with children := s.children.set child .ended }
        else none
      | _ => none
    | .exit child => some { s with children := s.children.set child .ended }

def initial (files : Files) : State WebString := { files }

/-- The rules that the bytes of a file stand for; none where they do not parse. -/
def rulesOf (bytes : Str) : Option Blocking.RuleList :=
  if bytes.isEmpty then some {} else u.parseFromString bytes

variable {u} {s s' t : State WebString}

/-- A whole file is read, it is not longer than a string, and it stands for the rules. -/
structure Loads (u : Setup WebString) (reading : Reading) (bytes : Str) (rl : Blocking.RuleList) :
    Prop where
  whole : reading.error = none
  fits : bytes.length ≤ u.platform.maxSize
  rules : rulesOf u bytes = some rl

theorem readRules_loads {reading : Reading} {bytes : Str} {rl : Blocking.RuleList}
    (of : reading.Of bytes) :
    readRules u.platform {} u.parseFromString reading.results reading.buf = .ok rl ↔
      Loads u reading bytes rl := by
  unfold Reading.Of at of
  unfold Reading.results
  rw [readRules_ok_iff]
  cases failed : reading.error with
  | some e => exact iff_of_false (fun h => nomatch h.1) fun h => nomatch failed.symm.trans h.whole
  | none =>
    rw [failed, Option.isNone_none, if_pos rfl] at of
    rw [of]
    have rules : (if bytes.isEmpty then ({} : Blocking.RuleList) = rl
        else u.parseFromString bytes = some rl) ↔ rulesOf u bytes = some rl := by
      unfold rulesOf
      split
      · rw [Option.some.injEq]
      · exact Iff.rfl
    rw [rules]
    constructor
    · rintro ⟨_, fits, same⟩
      exact ⟨failed, fits, same⟩
    · rintro ⟨_, fits, same⟩
      exact ⟨rfl, fits, same⟩

/-- The render process's rules, of a singleton that has had none. -/
def renderRules (u : Setup WebString) (rl : Blocking.RuleList) : BlockerSingleton WebString :=
  { render := ({} : RenderBlocker WebString).updateRulesForRenderProcess u.fromUTF8 rl }

theorem initializeResourceBundle_ok {reading : Reading} {bytes : Str}
    {blocker : BlockerSingleton WebString} (of : reading.Of bytes) :
    initializeResourceBundle u reading = .ok blocker ↔
      ∃ rl, Loads u reading bytes rl ∧ blocker = renderRules u rl := by
  simp only [initializeResourceBundle, BlockerSingleton.updateRulesWithFd,
    BlockerSingleton.updateRules, Checked.bind_eq_ok, readRules_loads of]
  constructor
  · rintro ⟨rl, loads, done⟩
    cases done
    exact ⟨rl, loads, rfl⟩
  · rintro ⟨rl, loads, rfl⟩
    exact ⟨rl, loads, rfl⟩

/-- The browser process after it has been told a path, and has read these rules there. -/
def BrowserLoaded (b : BlockerSingleton WebString) (path : Str) (rl : Blocking.RuleList) :
    BlockerSingleton WebString :=
  { b with filePath := path, browser := b.browser.updateRulesForBrowserProcess rl }

theorem updateRulesWithPath_ok {files : Files} {b after : BlockerSingleton WebString} {path : Str}
    {reading : Reading}
    (of : ∀ file, files.openFile path = some file → reading.Of (files.bytes file)) :
    b.updateRulesWithPath u.fromUTF8 u.parseFromString reading.buf u.platform
        (fun path => (files.openFile path).map fun _ => reading.results) path = .ok after ↔
      ∃ file rl, files.openFile path = some file ∧ Loads u reading (files.bytes file) rl ∧
        after = BrowserLoaded b path rl := by
  unfold BlockerSingleton.updateRulesWithPath
  beta_reduce
  cases opened : files.openFile path with
  | none => simp
  | some file =>
    simp only [Option.map_some, BlockerSingleton.updateRules, Checked.bind_eq_ok,
      readRules_loads (of file opened), Option.some.injEq, if_true]
    constructor
    · rintro ⟨rl, loads, done⟩
      cases done
      exact ⟨file, rl, rfl, loads, rfl⟩
    · rintro ⟨_, rl, rfl, loads, rfl⟩
      exact ⟨rl, loads, rfl⟩

theorem mappedFiles_ok {files : Files} {b : BlockerSingleton WebString} {pak file : Nat} :
    getAdditionalMappedFilesForChildProcess u files b = .ok (pak, file) ↔
      files.openFile u.pakFile = some pak ∧ files.openFile b.filePath = some file := by
  unfold getAdditionalMappedFilesForChildProcess getBlockingDataFd
  cases files.openFile u.pakFile with
  | none => simp
  | some pak' =>
    by_cases unset : b.filePath.isEmpty = true
    · simp [unset, Files.openFile, bind, Except.bind]
    · cases files.openFile b.filePath with
      | none => simp [unset, bind, Except.bind]
      | some file' =>
        simp only [Checked.bind_eq_ok, if_neg unset]
        constructor
        · rintro ⟨_, same, done⟩
          cases same
          cases done
          exact ⟨rfl, rfl⟩
        · rintro ⟨pakSame, fileSame⟩
          cases pakSame
          cases fileSame
          exact ⟨file, rfl, rfl⟩

/-- What keeps the browser process alive: rules that it can load, and files that a child can
be given. -/
def Served (u : Setup WebString) (files : Files) (path : Str) : Event → Prop
  | .updateBlockingRules path reading =>
    ∃ file rl, files.openFile path = some file ∧ Loads u reading (files.bytes file) rl
  | .launch =>
    (∃ pak, files.openFile u.pakFile = some pak) ∧ ∃ file, files.openFile path = some file
  | _ => True

/-- Everything a step can do. -/
inductive Moves (u : Setup WebString) (s : State WebString) : Event → State WebString → Prop where
  | write (file : Nat) (bytes : Str) :
    Moves u s (.write file bytes) { s with files := s.files.write file bytes }
  | rename (path : Str) (file : Option Nat) :
    Moves u s (.rename path file) { s with files := s.files.rename path file }
  | update {path : Str} {reading : Reading} {file : Nat} {rl : Blocking.RuleList}
      (opened : s.files.openFile path = some file)
      (loads : Loads u reading (s.files.bytes file) rl) :
    Moves u s (.updateBlockingRules path reading)
      { s with browser := BrowserLoaded s.browser path rl }
  | launch {pak file : Nat} (pakOpened : s.files.openFile u.pakFile = some pak)
      (opened : s.files.openFile s.browser.filePath = some file) :
    Moves u s .launch { s with children := s.children ++ [.launched file] }
  | startUp {child file : Nat} {reading : Reading} {rl : Blocking.RuleList}
      (here : s.children[child]? = some (.launched file))
      (loads : Loads u reading (s.files.bytes file) rl) :
    Moves u s (.startUp child reading)
      { s with children := s.children.set child (.running (renderRules u rl)) }
  | failed {child : Nat} {reading : Reading} :
    Moves u s (.startUp child reading) { s with children := s.children.set child .ended }
  | exit (child : Nat) :
    Moves u s (.exit child) { s with children := s.children.set child .ended }
  | fatal {e : Event} (unserved : ¬ Served u s.files s.browser.filePath e) :
    Moves u s e { s with fatal := true }

theorem update_moves {path : Str} {reading : Reading} (alive : ¬ s.fatal = true)
    (hs : step u s (.updateBlockingRules path reading) = some s') :
    Moves u s (.updateBlockingRules path reading) s' := by
  simp only [step, if_neg alive] at hs
  split at hs
  · cases hs
  · next read =>
    have of : ∀ file, s.files.openFile path = some file → reading.Of (s.files.bytes file) := by
      intro file opened
      simpa [opened] using read
    split at hs
    · next browser done =>
      obtain ⟨file, rl, opened, loads, rfl⟩ := (updateRulesWithPath_ok of).mp done
      cases hs
      exact .update opened loads
    · next e failed =>
      cases hs
      apply Moves.fatal
      rintro ⟨file, rl, opened, loads⟩
      have done := (updateRulesWithPath_ok (b := s.browser) of).mpr ⟨file, rl, opened, loads, rfl⟩
      rw [done] at failed
      cases failed

theorem launch_moves (alive : ¬ s.fatal = true) (hs : step u s .launch = some s') :
    Moves u s .launch s' := by
  simp only [step, if_neg alive] at hs
  split at hs
  · next pak file done =>
    obtain ⟨pakOpened, opened⟩ := mappedFiles_ok.mp done
    cases hs
    exact .launch pakOpened opened
  · next e failed =>
    cases hs
    apply Moves.fatal
    rintro ⟨⟨pak, pakOpened⟩, file, opened⟩
    rw [mappedFiles_ok.mpr ⟨pakOpened, opened⟩] at failed
    cases failed

theorem startUp_moves {child : Nat} {reading : Reading} (alive : ¬ s.fatal = true)
    (hs : step u s (.startUp child reading) = some s') : Moves u s (.startUp child reading) s' := by
  simp only [step, if_neg alive] at hs
  split at hs
  · next file here =>
    split at hs
    · next of =>
      split at hs
      · next blocker done =>
        obtain ⟨rl, loads, rfl⟩ := (initializeResourceBundle_ok of).mp done
        cases hs
        exact .startUp here loads
      · cases hs
        exact .failed
    · cases hs
  · cases hs

theorem step_moves {e : Event} (hs : step u s e = some s') : s.fatal = false ∧ Moves u s e s' := by
  have taken := hs
  unfold step at taken
  split at taken
  · cases taken
  · next alive =>
    refine ⟨Bool.eq_false_iff.mpr alive, ?_⟩
    cases e with
    | write file bytes =>
      cases taken
      exact .write file bytes
    | rename path file =>
      cases taken
      exact .rename path file
    | updateBlockingRules path reading => exact update_moves alive hs
    | launch => exact launch_moves alive hs
    | startUp child reading => exact startUp_moves alive hs
    | exit child =>
      cases taken
      exact .exit child

/-! The browser process. -/

def Files.after (files : Files) : Event → Files
  | .write file bytes => files.write file bytes
  | .rename path file => files.rename path file
  | _ => files

def Event.path (told : Str) : Event → Str
  | .updateBlockingRules path _ => path
  | _ => told

theorem moves_files {e : Event} (moves : Moves u s e s') : s'.files = s.files.after e := by
  cases moves with
  | fatal unserved =>
    cases e with
    | write file bytes => exact absurd trivial unserved
    | rename path file => exact absurd trivial unserved
    | _ => rfl
  | _ => rfl

theorem moves_alive {e : Event} (alive : s.fatal = false) (moves : Moves u s e s') :
    s'.fatal = false ↔ Served u s.files s.browser.filePath e := by
  cases moves with
  | fatal unserved => exact iff_of_false nofun unserved
  | update opened loads => exact iff_of_true alive ⟨_, _, opened, loads⟩
  | launch pakOpened opened => exact iff_of_true alive ⟨⟨_, pakOpened⟩, _, opened⟩
  | _ => exact iff_of_true alive trivial

theorem moves_path {e : Event} (moves : Moves u s e s') (alive : s'.fatal = false) :
    s'.browser.filePath = e.path s.browser.filePath := by
  cases moves with
  | fatal unserved => cases alive
  | _ => rfl

/-- The names and the bytes after the events. -/
def filesAfter (files : Files) (past : List Event) : Files := past.foldl Files.after files

/-- The path that the browser has been told last; empty if it has been told none. -/
def lastPath (past : List Event) : Str := past.foldl Event.path []

theorem filesAfter_concat (files : Files) (past : List Event) (e : Event) :
    filesAfter files (past ++ [e]) = (filesAfter files past).after e := List.foldl_concat ..

theorem lastPath_concat (past : List Event) (e : Event) :
    lastPath (past ++ [e]) = e.path (lastPath past) := List.foldl_concat ..

structure Followed (u : Setup WebString) (files : Files) (past : List Event)
    (s : State WebString) : Prop where
  names : s.files = filesAfter files past
  path : s.fatal = false → s.browser.filePath = lastPath past
  alive : s.fatal = false ↔
    Runs.Throughout (fun past e => Served u (filesAfter files past) (lastPath past) e) past

theorem step_followed {files : Files} {past : List Event} {e : Event}
    (followed : Followed u files past s) (hs : step u s e = some s') :
    Followed u files (past ++ [e]) s' := by
  obtain ⟨alive, moves⟩ := step_moves hs
  have path := followed.path alive
  constructor
  · rw [filesAfter_concat, ← followed.names]
    exact moves_files moves
  · intro goes
    rw [lastPath_concat, ← path]
    exact moves_path moves goes
  · rw [moves_alive alive moves, Runs.throughout_concat, ← followed.alive, path, followed.names]
    exact (and_iff_right alive).symm

/-- The browser outlives its updates and launches exactly when every path it is told leads to
rules that it can load, and no child is launched before it has been told one, after the file
has gone, or without the pak. -/
theorem browser_survives_iff (u : Setup WebString) (files : Files) {es : List Event}
    (reached : Runs.run (step u) (initial files) es = some t) :
    t.fatal = false ↔ Runs.Throughout
      (fun past e => Served u (filesAfter files past) (lastPath past) e) es := by
  have start : Followed u files [] (initial files) :=
    ⟨rfl, fun _ => rfl, iff_of_true rfl Runs.throughout_nil⟩
  exact (Runs.invariant_history [] start (fun _ _ _ _ => step_followed) reached).alive

/-- A list of one rule, as it is in the file. -/
def ruleBytes : Str := [10, 7, 10, 3, 97, 46, 98, 16, 1].map Char.ofNat

def phone : Setup Str where
  platform := ⟨.bits32, 2 ^ 30⟩
  pakFile := "pak".toList
  parseFromString raw := if raw = ruleBytes then some ⟨[⟨"a.b".toList, true, []⟩]⟩ else none
  fromUTF8 text := text

def wholeFile : Reading where
  chunks := [⟨ruleBytes, List.cons_ne_nil _ _, by decide⟩]
  buf := ⟨List.replicate bufSize ' ', List.length_replicate⟩

def installed : Files where
  link path :=
    if path = "pak".toList then some 0 else if path = "rules".toList then some 1 else none
  bytes file := if file = 1 then ruleBytes else []

def told : List Event := [.updateBlockingRules "rules".toList wholeFile]

/-- The file has gone by the time the child reads it. -/
def started : List Event := [.launch, .rename "rules".toList none, .startUp 0 wholeFile]

theorem browser_survives_iff_phone :
    ∃ t, Runs.run (step phone) (initial installed) (told ++ started) = some t ∧
      (t.fatal = false ↔ Runs.Throughout
        (fun past e => Served phone (filesAfter installed past) (lastPath past) e)
        (told ++ started)) :=
  ⟨_, rfl, browser_survives_iff phone installed rfl⟩

example : (step phone (initial installed) .launch).map (·.fatal) = some true := by decide

/-! The rules of a child. -/

/-- The event neither replaces the file under the path nor tells the browser a path. -/
def Event.KeepsLink (path : Str) : Event → Prop
  | .rename p _ => p ≠ path
  | .updateBlockingRules _ _ => False
  | _ => True

def Event.KeepsBytes (file : Nat) : Event → Prop
  | .write f _ => f ≠ file
  | _ => True

theorem after_bytes {files : Files} {file : Nat} {e : Event} (kept : e.KeepsBytes file) :
    (files.after e).bytes file = files.bytes file := by
  cases e with
  | write f bytes => exact if_neg (Ne.symm kept)
  | _ => rfl

theorem after_openFile {files : Files} {path : Str} {e : Event} (kept : e.KeepsLink path) :
    (files.after e).openFile path = files.openFile path := by
  cases e with
  | rename p file =>
    have other : (files.rename p file).link path = files.link path := if_neg (Ne.symm kept)
    simp only [Files.after, Files.openFile, other]
  | _ => rfl

/-- The browser has the rules of the file, and the file is still there. -/
structure Current (path : Str) (file : Nat) (bytes : Str) (blocker : Blocker)
    (s : State WebString) : Prop where
  opened : s.files.openFile path = some file
  bytes : s.files.bytes file = bytes
  path : s.browser.filePath = path
  blocker : s.browser.browser = blocker

theorem step_current {path bytes : Str} {file : Nat} {blocker : Blocker} {e : Event}
    (current : Current path file bytes blocker s) (hs : step u s e = some s')
    (link : e.KeepsLink path) (content : e.KeepsBytes file) :
    Current path file bytes blocker s' := by
  obtain ⟨alive, moves⟩ := step_moves hs
  have files := moves_files moves
  have browser : s'.browser = s.browser := by
    cases moves with
    | update opened loads => exact False.elim link
    | _ => rfl
  constructor
  · rw [files, after_openFile link, current.opened]
  · rw [files, after_bytes content, current.bytes]
  · rw [browser, current.path]
  · rw [browser, current.blocker]

/-- A child that has been given a file with these bytes, and what it can become. -/
structure Given (u : Setup WebString) (n file : Nat) (bytes : Str) (rl : Blocking.RuleList)
    (s : State WebString) : Prop where
  bytes : s.files.bytes file = bytes
  child : s.children[n]? = some (.launched file) ∨ s.children[n]? = some .ended ∨
    s.children[n]? = some (.running (renderRules u rl))

section
variable {n file : Nat} {bytes : Str} {rl : Blocking.RuleList}

theorem given_inside (given : Given u n file bytes rl s) : n < s.children.length := by
  rcases given.child with h | h | h
  all_goals exact (List.getElem?_eq_some_iff.mp h).1

theorem ended_given (given : Given u n file bytes rl s) (child : Nat) :
    Given u n file bytes rl { s with children := s.children.set child .ended } := by
  refine ⟨given.bytes, ?_⟩
  by_cases here : child = n
  · subst here
    exact .inr (.inl (List.getElem?_set_self (given_inside given)))
  · simp only [List.getElem?_set_ne here]
    exact given.child

theorem startUp_given {child file' : Nat} {reading : Reading} {rl' : Blocking.RuleList}
    (rules : rulesOf u bytes = some rl) (given : Given u n file bytes rl s)
    (here : s.children[child]? = some (.launched file'))
    (loads : Loads u reading (s.files.bytes file') rl') :
    Given u n file bytes rl
      { s with children := s.children.set child (.running (renderRules u rl')) } := by
  refine ⟨given.bytes, ?_⟩
  by_cases same : child = n
  · subst same
    rcases given.child with h | h | h
    · cases here.symm.trans h
      have both := loads.rules
      rw [given.bytes, rules] at both
      cases both
      exact .inr (.inr (List.getElem?_set_self (given_inside given)))
    · cases here.symm.trans h
    · cases here.symm.trans h
  · simp only [List.getElem?_set_ne same]
    exact given.child

theorem step_given {e : Event} (rules : rulesOf u bytes = some rl)
    (given : Given u n file bytes rl s) (hs : step u s e = some s') (content : e.KeepsBytes file) :
    Given u n file bytes rl s' := by
  obtain ⟨alive, moves⟩ := step_moves hs
  refine ⟨by rw [moves_files moves, after_bytes content, given.bytes], ?_⟩
  cases moves with
  | write file bytes => exact given.child
  | rename path file => exact given.child
  | update opened loads => exact given.child
  | launch pakOpened opened =>
    simp only [List.getElem?_append_left (given_inside given)]
    exact given.child
  | startUp here loads => exact (startUp_given rules given here loads).child
  | failed => exact (ended_given given _).child
  | exit child => exact (ended_given given child).child
  | fatal unserved => exact given.child

end

theorem update_current {path : Str} {reading : Reading} {file : Nat}
    (opened : s.files.openFile path = some file)
    (hs : step u s (.updateBlockingRules path reading) = some s') (alive : s'.fatal = false) :
    ∃ rl, rulesOf u (s.files.bytes file) = some rl ∧
      Current path file (s.files.bytes file) (s.browser.browser.updateRulesForBrowserProcess rl)
        s' := by
  obtain ⟨_, moves⟩ := step_moves hs
  cases moves with
  | fatal unserved => cases alive
  | @update _ _ file' rl opened' loads =>
    cases opened.symm.trans opened'
    exact ⟨rl, loads.rules, opened, rfl, rfl, rfl⟩

theorem launch_given {path bytes : Str} {file : Nat} {blocker : Blocker} {rl : Blocking.RuleList}
    (current : Current path file bytes blocker s) (hs : step u s .launch = some s')
    (alive : s'.fatal = false) : Given u s.children.length file bytes rl s' := by
  obtain ⟨_, moves⟩ := step_moves hs
  cases moves with
  | fatal unserved => cases alive
  | @launch pak file' pakOpened opened =>
    rw [current.path, current.opened] at opened
    cases opened
    exact ⟨current.bytes, .inl List.getElem?_concat_length⟩

theorem alive_before {es : List Event} (ran : Runs.run (step u) s es = some t)
    (alive : t.fatal = false) : s.fatal = false := by
  cases es with
  | nil =>
    cases Option.some.inj ran
    exact alive
  | cons e es =>
    obtain ⟨s', hs, _⟩ := Option.bind_eq_some_iff.mp ran
    exact (step_moves hs).1

/-- The browser that stops at a launch has no child to show for it. -/
theorem launch_alive {after : List Event} {blocker : BlockerSingleton WebString}
    (hs : step u s .launch = some s') (ran : Runs.run (step u) s' after = some t)
    (running : t.children[s.children.length]? = some (.running blocker)) : s'.fatal = false := by
  by_contra fatal
  have stopped : after = [] := by
    cases after with
    | nil => rfl
    | cons e after =>
      obtain ⟨_, next, _⟩ := Option.bind_eq_some_iff.mp ran
      exact absurd (step_moves next).1 fatal
  rw [stopped] at ran
  cases Option.some.inj ran
  obtain ⟨alive, moves⟩ := step_moves hs
  cases moves with
  | launch pakOpened opened => exact fatal alive
  | fatal unserved =>
    rw [List.getElem?_eq_none (Nat.le_refl _)] at running
    cases running

/-- The requests that the browser blocks when a child is launched, and the pages that the
child styles for as long as it runs, are by the same rules: those of the file whose path the
browser has been told last. It takes no more than that the file is left as it is, and under
its path until the launch. -/
theorem child_styles_as_browser_blocks {s₀ s₁ : State WebString} {path : Str} {reading : Reading}
    {file : Nat} {mid after : List Event} {blocker : BlockerSingleton WebString}
    (opened : s₀.files.openFile path = some file)
    (launching : Runs.run (step u) s₀ (.updateBlockingRules path reading :: mid) = some s₁)
    (reached : Runs.run (step u) s₁ (.launch :: after) = some t)
    (link : ∀ e ∈ mid, e.KeepsLink path) (content : ∀ e ∈ mid ++ after, e.KeepsBytes file)
    (running : t.children[s₁.children.length]? = some (.running blocker)) :
    ∃ rl, rulesOf u (s₀.files.bytes file) = some rl ∧
      s₁.browser.browser = s₀.browser.browser.updateRulesForBrowserProcess rl ∧
      blocker = renderRules u rl := by
  obtain ⟨s, told, between⟩ := Option.bind_eq_some_iff.mp launching
  obtain ⟨s', launched, later⟩ := Option.bind_eq_some_iff.mp reached
  have alive : s₁.fatal = false := (step_moves launched).1
  obtain ⟨rl, rules, first⟩ := update_current opened told (alive_before between alive)
  have untilLaunch :
      Runs.Along (step u) (fun _ e _ => e.KeepsLink path ∧ e.KeepsBytes file) s mid :=
    Runs.along_of_events s mid fun e he => ⟨link e he, content e (List.mem_append_left _ he)⟩
  have current := Runs.invariant_along first
    (fun _ _ _ current hs kept => step_current current hs kept.1 kept.2) untilLaunch between
  have given : Given u s₁.children.length file (s₀.files.bytes file) rl s' :=
    launch_given current launched (launch_alive launched later running)
  have onwards : Runs.Along (step u) (fun _ e _ => e.KeepsBytes file) s' after :=
    Runs.along_of_events s' after fun e he => content e (List.mem_append_right _ he)
  have last := Runs.invariant_along given
    (fun _ _ _ given hs kept => step_given rules given hs kept) onwards later
  refine ⟨rl, rules, current.blocker, ?_⟩
  rcases last.child with h | h | h
  · cases running.symm.trans h
  · cases running.symm.trans h
  · cases running.symm.trans h
    rfl

theorem child_styles_as_browser_blocks_phone :
    ∃ s₁ t blocker, Runs.run (step phone) (initial installed) told = some s₁ ∧
      Runs.run (step phone) s₁ started = some t ∧
      t.children[s₁.children.length]? = some (.running blocker) ∧
      ∃ rl, rulesOf phone (installed.bytes 1) = some rl ∧
        s₁.browser.browser =
          (initial installed : State Str).browser.browser.updateRulesForBrowserProcess rl ∧
        blocker = renderRules phone rl := by
  have ran : ∃ s₁ t blocker, Runs.run (step phone) (initial installed) told = some s₁ ∧
      Runs.run (step phone) s₁ started = some t ∧
      t.children[s₁.children.length]? = some (.running blocker) := by
    refine ⟨_, _, _, rfl, rfl, rfl⟩
  obtain ⟨s₁, t, blocker, launching, reached, running⟩ := ran
  have opened : (initial installed : State Str).files.openFile "rules".toList = some 1 := rfl
  refine ⟨s₁, t, blocker, launching, reached, running, ?_⟩
  exact child_styles_as_browser_blocks opened launching reached (List.forall_mem_nil _)
    (by simp [Event.KeepsBytes]) running

end Seaturtle.ChildProcesses
