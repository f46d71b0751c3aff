import Seaturtle.Ints
import Seaturtle.Block.StyleSheets
import Seaturtle.Https.Rewriter
import Seaturtle.Lib.Checked

/-! Reading the rule files, of the blocker and of the HTTPS rewriter. A file is the list of
what its `ReadAtCurrentPos` does at each call; behind the last one it is at its end. -/
namespace Seaturtle.RuleFiles

inductive FileFatal where
  | check
  | lengthError
  /-- `append` reads on behind the end of the buffer. -/
  | overread
  /-- The rewriter does not take the rules. -/
  | rules (fatal : Https.Fatal)
  deriving DecidableEq

/-- What the code runs on. -/
structure Platform where
  sizeT : SizeT
  /-- `max_size()` of a `std::string`. -/
  maxSize : Nat

/-- `sizeof(buf)`. -/
def bufSize : Nat := 1 <<< 16

abbrev Buffer := { buf : Str // buf.length = bufSize }

structure Chunk where
  bytes : Str
  nonempty : bytes ≠ []
  fits : bytes.length ≤ bufSize

structure ReadError where
  code : Int
  negative : code < 0
  int : -(2 ^ 31) ≤ code

inductive ReadResult where
  | data (chunk : Chunk)
  | endOfFile
  | error (e : ReadError)

namespace ReadResult

/-- What `ReadAtCurrentPos` returns. -/
def value : ReadResult → Int
  | data chunk => chunk.bytes.length
  | endOfFile => 0
  | error e => e.code

/-- What it leaves in the buffer. -/
def fill : ReadResult → Buffer → Buffer
  | data chunk, buf => ⟨chunk.bytes ++ buf.val.drop chunk.bytes.length, by
      rw [List.length_append, List.length_drop, buf.property, Nat.add_sub_cancel' chunk.fits]⟩
  | endOfFile, buf => buf
  | error _, buf => buf

end ReadResult

variable (p : Platform)

abbrev StdString := { s : Str // s.length ≤ p.maxSize }

variable {p}

def append (contents : StdString p) (buf : Buffer) (n : Nat) : Except FileFatal (StdString p) :=
  if room : contents.val.length + n ≤ p.maxSize then
    if bufSize < n then .error .overread
    else .ok ⟨contents.val ++ buf.val.take n, by
      rw [List.length_append]
      exact Nat.le_trans (Nat.add_le_add_left (List.length_take_le _ _) _) room⟩
  else .error .lengthError

/-- The loop, with the `len` that ends it. -/
def readLoop : List ReadResult → Buffer → StdString p → Except FileFatal (Nat × StdString p)
  | [], _, contents => .ok (0, contents)
  | read :: reads, buf, contents =>
    let buf := read.fill buf
    -- a negative result is a length here, like any other
    let len := p.sizeT.ofInt read.value
    if 0 < len then do
      let contents ← append contents buf len
      readLoop reads buf contents
    else .ok (len, contents)

/-- `buf` is what is on the stack before the first read. -/
def readFileToString (file : List ReadResult) (buf : Buffer) (contents : StdString p) :
    Except FileFatal (Bool × StdString p) := do
  let (len, contents) ← readLoop file buf contents
  return (decide (0 ≤ len), contents)

/-- What the callers do with a file; without bytes it has no rules. -/
def readRules {RuleList : Type} (p : Platform) (noRules : RuleList)
    (parseFromString : Str → Option RuleList) (file : List ReadResult) (buf : Buffer) :
    Except FileFatal RuleList := do
  let (ok, raw) ← readFileToString (p := p) file buf ⟨[], Nat.zero_le _⟩
  if !ok then .error .check
  else if raw.val.isEmpty then .ok noRules
  else match parseFromString raw.val with
    | none => .error .check
    | some rl => .ok rl

/-- The `Blocker` of a process: the members that either kind of process uses. -/
structure BlockerSingleton (WebString : Type) where
  browser : Blocker := {}
  render : RenderBlocker WebString := {}
  filePath : Str := []

namespace BlockerSingleton
variable {WebString : Type} (fromUTF8 : Str → WebString)
  (parseFromString : Str → Option Blocking.RuleList) (buf : Buffer)

def updateRules (p : Platform) (b : BlockerSingleton WebString) (f : List ReadResult)
    (isBrowserProcess : Bool) : Except FileFatal (BlockerSingleton WebString) := do
  let rl ← readRules p {} parseFromString f buf
  if isBrowserProcess then .ok { b with browser := b.browser.updateRulesForBrowserProcess rl }
  else .ok { b with render := b.render.updateRulesForRenderProcess fromUTF8 rl }

/-- `none` is a file that is not valid. -/
def updateRulesWithPath (p : Platform) (b : BlockerSingleton WebString)
    (files : Str → Option (List ReadResult)) (path : Str) :
    Except FileFatal (BlockerSingleton WebString) :=
  let b := { b with filePath := path }
  match files path with
  | none => .error .check
  | some file => b.updateRules fromUTF8 parseFromString buf p file true

def updateRulesWithFd (p : Platform) (b : BlockerSingleton WebString)
    (fd : Option (List ReadResult)) : Except FileFatal (BlockerSingleton WebString) :=
  match fd with
  | none => .error .check
  | some file => b.updateRules fromUTF8 parseFromString buf p file false

end BlockerSingleton

/-- `HttpsRewriter::UpdateRulesWithPath`. -/
def updateRulesWithPath (p : Platform) (env : Https.Externals)
    (parseFromString : Str → Option Https.RuleList) (buf : Buffer)
    (files : Str → Option (List ReadResult)) (path : Str) :
    Except FileFatal Https.HttpsRewriter := do
  match files path with
  | none => .error .check
  | some file =>
    let rl ← readRules p {} parseFromString file buf
    (Https.updateRules env rl).mapError .rules

/-! A sequence of reads: chunks, and then the end of the file or an error. -/

def reads (chunks : List Chunk) (error : Option ReadError) : List ReadResult :=
  chunks.map .data ++ [match error with | none => .endOfFile | some e => .error e]

def bytesRead (chunks : List Chunk) : Str := chunks.flatMap (·.bytes)

theorem append_chunk {contents : StdString p} {chunk : Chunk} {buf : Buffer}
    (room : (contents.val ++ chunk.bytes).length ≤ p.maxSize) :
    append contents ((ReadResult.data chunk).fill buf) chunk.bytes.length =
      .ok ⟨contents.val ++ chunk.bytes, room⟩ := by
  have sum : contents.val.length + chunk.bytes.length ≤ p.maxSize := by
    rw [← List.length_append]
    exact room
  have filled : ((ReadResult.data chunk).fill buf).val.take chunk.bytes.length = chunk.bytes :=
    List.take_left
  simp only [append, dif_pos sum, if_neg (Nat.not_lt.mpr chunk.fits), filled]

theorem append_negative {contents : StdString p} {buf : Buffer} {n : Nat} (huge : 2 ^ 31 ≤ n) :
    ∃ fatal, append contents buf n = .error fatal ∧ fatal ≠ .check := by
  have behind : bufSize < n := Nat.lt_of_lt_of_le (by decide) huge
  unfold append
  by_cases room : contents.val.length + n ≤ p.maxSize
  · rw [dif_pos room, if_pos behind]
    exact ⟨.overread, rfl, nofun⟩
  · rw [dif_neg room]
    exact ⟨.lengthError, rfl, nofun⟩

theorem readLoop_cons (read : ReadResult) (file : List ReadResult) (buf : Buffer)
    (contents : StdString p) (positive : 0 < p.sizeT.ofInt read.value) :
    readLoop (read :: file) buf contents =
      (append contents (read.fill buf) (p.sizeT.ofInt read.value) >>=
        readLoop file (read.fill buf)) := by
  rw [readLoop, if_pos positive]

theorem chunk_len (chunk : Chunk) :
    p.sizeT.ofInt (ReadResult.data chunk).value = chunk.bytes.length := by
  have fits : chunk.bytes.length ≤ 65536 := chunk.fits
  apply SizeT.ofInt_nat
  omega

theorem readLoop_chunk {chunk : Chunk} {contents : StdString p} (file : List ReadResult)
    (buf : Buffer) (room : (contents.val ++ chunk.bytes).length ≤ p.maxSize) :
    readLoop (.data chunk :: file) buf contents =
      readLoop file ((ReadResult.data chunk).fill buf) ⟨contents.val ++ chunk.bytes, room⟩ := by
  have some_ : 0 < chunk.bytes.length := List.length_pos_iff.mpr chunk.nonempty
  rw [readLoop_cons, chunk_len, append_chunk room]
  · rfl
  · rw [chunk_len]
    exact some_

theorem readLoop_full {chunk : Chunk} {contents : StdString p} (file : List ReadResult)
    (buf : Buffer) (full : p.maxSize < (contents.val ++ chunk.bytes).length) :
    readLoop (.data chunk :: file) buf contents = .error .lengthError := by
  have some_ : 0 < chunk.bytes.length := List.length_pos_iff.mpr chunk.nonempty
  rw [List.length_append] at full
  rw [readLoop_cons, chunk_len, append, dif_neg (Nat.not_le.mpr full)]
  · rfl
  · rw [chunk_len]
    exact some_

/-- After a failed read the loop goes on, with a length that `append` cannot take. -/
theorem readLoop_error (e : ReadError) (file : List ReadResult) (buf : Buffer)
    (contents : StdString p) :
    ∃ fatal, readLoop (.error e :: file) buf contents = .error fatal ∧ fatal ≠ .check := by
  have huge : 2 ^ 31 ≤ p.sizeT.ofInt (ReadResult.error e).value :=
    SizeT.ofInt_negative e.negative e.int
  obtain ⟨fatal, failed, kind⟩ := append_negative huge
  refine ⟨fatal, ?_, kind⟩
  rw [readLoop_cons, failed]
  · rfl
  · omega

theorem readLoop_end (buf : Buffer) (contents : StdString p) :
    readLoop [.endOfFile] buf contents = .ok (0, contents) := by
  have len : p.sizeT.ofInt ReadResult.endOfFile.value = 0 := SizeT.ofInt_nat (by decide)
  rw [readLoop, len]
  rfl

theorem readLoop_chunks {chunks : List Chunk} {contents : StdString p} (file : List ReadResult)
    (buf : Buffer) (room : (contents.val ++ bytesRead chunks).length ≤ p.maxSize) :
    ∃ buf', readLoop (chunks.map .data ++ file) buf contents =
      readLoop file buf' ⟨contents.val ++ bytesRead chunks, room⟩ := by
  induction chunks generalizing contents buf with
  | nil =>
    refine ⟨buf, ?_⟩
    simp only [bytesRead, List.flatMap_nil, List.append_nil]
    rfl
  | cons chunk chunks ih =>
    have joined : contents.val ++ bytesRead (chunk :: chunks) =
        contents.val ++ chunk.bytes ++ bytesRead chunks := by
      rw [bytesRead, List.flatMap_cons, ← List.append_assoc]
      rfl
    rw [joined] at room
    have first : (contents.val ++ chunk.bytes).length ≤ p.maxSize := by
      rw [List.length_append] at room
      omega
    obtain ⟨buf', rest⟩ := @ih ⟨contents.val ++ chunk.bytes, first⟩
      ((ReadResult.data chunk).fill buf) room
    refine ⟨buf', ?_⟩
    rw [List.map_cons, List.cons_append, readLoop_chunk _ _ first, rest]
    simp only [joined]

theorem readLoop_overfull {chunks : List Chunk} {contents : StdString p} (file : List ReadResult)
    (buf : Buffer) (full : p.maxSize < (contents.val ++ bytesRead chunks).length) :
    readLoop (chunks.map .data ++ file) buf contents = .error .lengthError := by
  induction chunks generalizing contents buf with
  | nil =>
    have fits := contents.property
    rw [bytesRead, List.flatMap_nil, List.append_nil] at full
    omega
  | cons chunk chunks ih =>
    rw [List.map_cons, List.cons_append]
    rcases Nat.lt_or_ge p.maxSize (contents.val ++ chunk.bytes).length with now | first
    · exact readLoop_full _ _ now
    · rw [readLoop_chunk _ _ first]
      apply ih
      rw [bytesRead, List.flatMap_cons, ← List.append_assoc] at full
      exact full

theorem readFileToString_whole {chunks : List Chunk} {contents : StdString p} (buf : Buffer)
    (room : (contents.val ++ bytesRead chunks).length ≤ p.maxSize) :
    readFileToString (reads chunks none) buf contents =
      .ok (true, ⟨contents.val ++ bytesRead chunks, room⟩) := by
  obtain ⟨buf', loop⟩ := readLoop_chunks [.endOfFile] buf room
  rw [readFileToString, reads, loop, readLoop_end]
  rfl

theorem readFileToString_overfull {chunks : List Chunk} {contents : StdString p}
    (error : Option ReadError) (buf : Buffer)
    (full : p.maxSize < (contents.val ++ bytesRead chunks).length) :
    readFileToString (reads chunks error) buf contents = .error .lengthError := by
  unfold readFileToString reads
  rw [readLoop_overfull _ _ full]
  rfl

theorem readFileToString_failed (chunks : List Chunk) (e : ReadError) (buf : Buffer)
    (contents : StdString p) :
    ∃ fatal, readFileToString (reads chunks (some e)) buf contents = .error fatal ∧
      fatal ≠ .check := by
  rcases Nat.lt_or_ge p.maxSize (contents.val ++ bytesRead chunks).length with full | room
  · exact ⟨.lengthError, readFileToString_overfull _ buf full, nofun⟩
  · obtain ⟨buf', loop⟩ := readLoop_chunks [.error e] buf room
    obtain ⟨fatal, failed, kind⟩ :=
      readLoop_error e [] buf' ⟨contents.val ++ bytesRead chunks, room⟩
    refine ⟨fatal, ?_, kind⟩
    rw [readFileToString, reads, loop, failed]
    rfl

/-- No file makes it return false: an unsigned `len` is never below 0. -/
theorem readFileToString_true {file : List ReadResult} {buf : Buffer}
    {contents after : StdString p} {ok : Bool}
    (done : readFileToString file buf contents = .ok (ok, after)) : ok = true := by
  rw [readFileToString, Checked.bind_eq_ok] at done
  obtain ⟨⟨len, _⟩, _, returned⟩ := done
  cases returned
  exact decide_eq_true (Nat.zero_le len)

section
variable {RuleList : Type} {noRules rl : RuleList} {parseFromString : Str → Option RuleList}

/-- After a failed read no `CHECK` of the callers stops the process. -/
theorem readRules_failed (chunks : List Chunk) (e : ReadError) (buf : Buffer) :
    ∃ fatal, readRules p noRules parseFromString (reads chunks (some e)) buf = .error fatal ∧
      fatal ≠ .check := by
  obtain ⟨fatal, failed, kind⟩ :=
    readFileToString_failed (p := p) chunks e buf ⟨[], Nat.zero_le _⟩
  refine ⟨fatal, ?_, kind⟩
  rw [readRules, failed]
  rfl

theorem readRules_overfull {chunks : List Chunk} (error : Option ReadError) (buf : Buffer)
    (full : p.maxSize < (bytesRead chunks).length) :
    readRules p noRules parseFromString (reads chunks error) buf = .error .lengthError := by
  have failed := @readFileToString_overfull p chunks ⟨[], Nat.zero_le _⟩ error buf full
  rw [readRules, failed]
  rfl

theorem readRules_whole {chunks : List Chunk} (buf : Buffer)
    (room : (bytesRead chunks).length ≤ p.maxSize) :
    readRules p noRules parseFromString (reads chunks none) buf =
      if (bytesRead chunks).isEmpty then .ok noRules
      else match parseFromString (bytesRead chunks) with
        | none => .error .check
        | some rl => .ok rl := by
  have whole := @readFileToString_whole p chunks ⟨[], Nat.zero_le _⟩ buf room
  rw [readRules, whole]
  rfl

/-- The callers go on with just the rules that the bytes of the whole file stand for. -/
theorem readRules_ok_iff {chunks : List Chunk} {error : Option ReadError} {buf : Buffer} :
    readRules p noRules parseFromString (reads chunks error) buf = .ok rl ↔
      error = none ∧ (bytesRead chunks).length ≤ p.maxSize ∧
      (if (bytesRead chunks).isEmpty then noRules = rl
       else parseFromString (bytesRead chunks) = some rl) := by
  cases error with
  | some e =>
    obtain ⟨fatal, failed, _⟩ :=
      @readRules_failed p RuleList noRules parseFromString chunks e buf
    rw [failed]
    exact iff_of_false nofun fun h => nomatch h.1
  | none =>
    rcases Nat.lt_or_ge p.maxSize (bytesRead chunks).length with full | room
    · rw [readRules_overfull none buf full]
      exact iff_of_false nofun fun h => Nat.not_le.mpr full h.2.1
    · rw [readRules_whole buf room]
      split
      · simp [room]
      · cases parseFromString (bytesRead chunks) with
        | none => simp
        | some found => simp [room]

end

/-- A file that the browser process takes gives every render process the same rules. -/
theorem processes_agree {WebString : Type} {fromUTF8 : Str → WebString}
    {parseFromString : Str → Option Blocking.RuleList} {buf : Buffer}
    {browser after : BlockerSingleton WebString} {files : Str → Option (List ReadResult)}
    {path : Str} {chunks : List Chunk} {error : Option ReadError}
    (opened : files path = some (reads chunks error))
    (loaded : browser.updateRulesWithPath fromUTF8 parseFromString buf p files path = .ok after) :
    ∃ rl, after.browser = browser.browser.updateRulesForBrowserProcess rl ∧
      ∀ (render : BlockerSingleton WebString) (buf' : Buffer),
        render.updateRulesWithFd fromUTF8 parseFromString buf' p (some (reads chunks error)) =
          .ok { render with render := render.render.updateRulesForRenderProcess fromUTF8 rl } := by
  simp only [BlockerSingleton.updateRulesWithPath, opened, BlockerSingleton.updateRules,
    Checked.bind_eq_ok] at loaded
  obtain ⟨rl, read, done⟩ := loaded
  refine ⟨rl, ?_, ?_⟩
  · cases done
    rfl
  · intro render buf'
    have again : readRules p {} parseFromString (reads chunks error) buf' = .ok rl :=
      readRules_ok_iff.mpr (readRules_ok_iff.mp read)
    simp only [BlockerSingleton.updateRulesWithFd, BlockerSingleton.updateRules, again]
    rfl

/-- The bytes are those of the file, the result is whether they are all, and the callers
stop at their `CHECK` if they are not. -/
structure ReportsReads (p : Platform) (chunks : List Chunk) (error : Option ReadError)
    (buf : Buffer) (contents : StdString p) : Prop where
  result : ∃ after : StdString p, after.val = contents.val ++ bytesRead chunks ∧
    readFileToString (reads chunks error) buf contents = .ok (error.isNone, after)
  blocker : error ≠ none → ∀ (WebString : Type) (fromUTF8 : Str → WebString)
    (parseFromString : Str → Option Blocking.RuleList) (b : BlockerSingleton WebString)
    (isBrowserProcess : Bool),
    b.updateRules fromUTF8 parseFromString buf p (reads chunks error) isBrowserProcess =
      .error .check
  rewriter : error ≠ none → ∀ (env : Https.Externals)
    (parseFromString : Str → Option Https.RuleList) (files : Str → Option (List ReadResult))
    (path : Str), files path = some (reads chunks error) →
    updateRulesWithPath p env parseFromString buf files path = .error .check

theorem reports_reads_iff (p : Platform) (chunks : List Chunk) (error : Option ReadError)
    (buf : Buffer) (contents : StdString p) :
    ReportsReads p chunks error buf contents ↔
      error = none ∧ (contents.val ++ bytesRead chunks).length ≤ p.maxSize := by
  constructor
  · intro h
    obtain ⟨after, all, done⟩ := h.result
    constructor
    · cases error with
      | none => rfl
      | some e =>
        obtain ⟨fatal, failed, _⟩ := readFileToString_failed chunks e buf contents
        rw [failed] at done
        cases done
    · rw [← all]
      exact after.property
  · rintro ⟨rfl, room⟩
    constructor
    · exact ⟨⟨_, room⟩, rfl, readFileToString_whole buf room⟩
    · intro failed
      exact absurd rfl failed
    · intro failed
      exact absurd rfl failed

/-- The first read of a file fails, and 2^32 - 1 characters are appended. -/
theorem failed_read_not_reported :
    ¬ ReportsReads ⟨.bits32, 2 ^ 32 - 2⟩ [] (some ⟨-1, by decide, by decide⟩)
      ⟨List.replicate bufSize ' ', List.length_replicate⟩ ⟨[], Nat.zero_le _⟩ := by
  intro h
  obtain ⟨after, _, done⟩ := h.result
  obtain ⟨fatal, failed, _⟩ := readFileToString_failed (p := ⟨.bits32, 2 ^ 32 - 2⟩) []
    ⟨-1, by decide, by decide⟩ ⟨List.replicate bufSize ' ', List.length_replicate⟩
    ⟨[], Nat.zero_le _⟩
  rw [failed] at done
  cases done

end Seaturtle.RuleFiles
