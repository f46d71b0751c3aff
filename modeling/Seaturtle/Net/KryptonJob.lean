import Seaturtle.Ints
import Seaturtle.Url
import Mathlib.Algebra.Group.Nat.Defs
import Mathlib.Data.List.Basic

/-! The job of a `krypton:` URL. Java renders the page, and the network stack reads it
into buffers of sizes that it chooses. -/
namespace Seaturtle

inductive JobFatal where
  /-- `STDCHECK`. -/
  | check
  /-- `strncpy` goes on behind the end of the string that it copies from. -/
  | overread
  deriving DecidableEq

def nul : Char := Char.ofNat 0

/-- What `strncpy` writes into the `n` bytes: it stops at a NUL and fills up with NULs. -/
def strncpy : Str → Nat → Except JobFatal Str
  | _, 0 => .ok []
  | [], _ + 1 => .error .overread
  | c :: src, n + 1 =>
    if c = nul then .ok (List.replicate (n + 1) nul) else (strncpy src n).map (c :: ·)

structure URLRequestSeaturtleJob where
  url : Str
  bytesAlreadyRead : Int := 0
  /-- The `render_response` of `resp_`, null until `StartAsync`. -/
  resp : Option Str := none
  deriving DecidableEq

namespace URLRequestSeaturtleJob

/-- `jni::Invoke` asks Java to render the URL; `none` is an answer that is not a
`RENDER_RESPONSE`. -/
def startAsync (invoke : Str → Option Str) (job : URLRequestSeaturtleJob) :
    Except JobFatal URLRequestSeaturtleJob :=
  match invoke job.url with
  | none => .error .check
  | some response => .ok { job with resp := some response }

/-- The first `*bytes_read` bytes of the buffer. -/
def readRawData (job : URLRequestSeaturtleJob) (bufSize : Int) :
    Except JobFatal (Str × URLRequestSeaturtleJob) :=
  if bufSize ≤ 0 then .error .check
  else match job.resp with
  | none => .error .check
  | some response =>
    let respLength := toInt32 response.length
    if job.bytesAlreadyRead < respLength then do
      let bytesRead := min bufSize respLength
      let data ← strncpy response bytesRead.toNat
      .ok (data, { job with bytesAlreadyRead := toInt32 (job.bytesAlreadyRead + bytesRead) })
    else .ok ([], job)

/-- Calls with these buffer sizes, until one reports 0 bytes, deliver the bytes. -/
inductive Delivers : URLRequestSeaturtleJob → (Nat → Int) → Str → Prop where
  | done {job job' : URLRequestSeaturtleJob} {sizes : Nat → Int} :
      job.readRawData (sizes 0) = .ok ([], job') → Delivers job sizes []
  | more {job job' : URLRequestSeaturtleJob} {sizes : Nat → Int} {data rest : Str} :
      job.readRawData (sizes 0) = .ok (data, job') → data ≠ [] →
      Delivers job' (fun k => sizes (k + 1)) rest → Delivers job sizes (data ++ rest)

/-- The string as `strncpy` copies it: NULs from the first NUL on. -/
def text : Str → Str
  | [] => []
  | c :: r => if c = nul then List.replicate (r.length + 1) nul else c :: text r

theorem text_length (r : Str) : (text r).length = r.length := by
  induction r with
  | nil => rfl
  | cons c r ih =>
    rw [text]
    split
    · simp
    · simp [ih]

theorem strncpy_eq {r : Str} {n : Nat} (fits : n ≤ r.length) :
    strncpy r n = .ok ((text r).take n) := by
  induction r generalizing n with
  | nil =>
    cases Nat.le_zero.mp fits
    rfl
  | cons c r ih =>
    cases n with
    | zero => rfl
    | succ n =>
      rw [List.length_cons] at fits
      rw [strncpy, text]
      split
      · rw [List.take_replicate, Nat.min_eq_left fits]
      · rw [ih (Nat.le_of_succ_le_succ fits)]
        rfl

/-- The job has its page and is where the calls so far have brought it. -/
def at_ (url r : Str) (already : Nat) : URLRequestSeaturtleJob :=
  { url, bytesAlreadyRead := already, resp := some r }

variable {url r : Str}

theorem readRawData_at_end (size : Int) (short : r.length < 2 ^ 31) (positive : 0 < size) :
    (at_ url r r.length).readRawData size = .ok ([], at_ url r r.length) := by
  simp only [readRawData, at_, toInt32_of_nat short, if_neg (Int.not_le.mpr positive),
    if_neg (Int.lt_irrefl _)]

/-- Before the end a call delivers the beginning of the page, wherever it is. -/
theorem readRawData_at {already : Nat} (size : Int) (short : r.length < 2 ^ 31)
    (positive : 0 < size)
    (before : already < r.length) :
    (at_ url r already).readRawData size = .ok ((text r).take size.toNat,
      { at_ url r already with
        bytesAlreadyRead := toInt32 (already + ((text r).take size.toNat).length) }) := by
  have piece : min size r.length = ((min size.toNat r.length : Nat) : Int) := by omega
  have cut : (text r).take (min size.toNat r.length) = (text r).take size.toNat := by
    rw [← text_length r, ← List.take_eq_take_min]
  have copied : strncpy r (min size.toNat r.length) = .ok ((text r).take size.toNat) := by
    rw [strncpy_eq (Nat.min_le_right _ _), cut]
  have early : ((already : Nat) : Int) < r.length := by omega
  simp only [readRawData, at_, toInt32_of_nat short, if_neg (Int.not_le.mpr positive),
    if_pos early, piece, Int.toNat_natCast, copied, List.length_take, text_length]
  rfl

/-- The pieces that the first `k` buffers get: each is the beginning of the page. -/
def beginnings (r : Str) (sizes : Nat → Int) (k : Nat) : List Str :=
  (List.range k).map fun i => (text r).take (sizes i).toNat

theorem beginnings_succ (r : Str) (sizes : Nat → Int) (k : Nat) : beginnings r sizes (k + 1) =
    (text r).take (sizes 0).toNat :: beginnings r (fun i => sizes (i + 1)) k := by
  unfold beginnings
  rw [List.range_succ_eq_map, List.map_cons, List.map_map]
  rfl

theorem piece_ne_nil {size : Int} (positive : 0 < size) (something : 0 < r.length) :
    (text r).take size.toNat ≠ [] := by
  rw [ne_eq, List.take_eq_nil_iff, not_or, ← List.length_eq_zero_iff, text_length]
  omega

theorem delivers_at_end {sizes : Nat → Int} {s : Str} (short : r.length < 2 ^ 31)
    (positive : ∀ k, 0 < sizes k) : Delivers (at_ url r r.length) sizes s ↔ s = [] := by
  have read := @readRawData_at_end url r (sizes 0) short (positive 0)
  constructor
  · intro h
    cases h with
    | done _ => rfl
    | more now something _ =>
      rw [read] at now
      cases now
      exact absurd rfl something
  · rintro rfl
    exact .done read

/-- Where something is left, the next piece is the beginning of the page. -/
theorem delivers_at {already : Nat} {sizes : Nat → Int} {s : Str} (short : r.length < 2 ^ 31)
    (positive : ∀ k, 0 < sizes k) (left : already + s.length = r.length) (something : s ≠ []) :
    Delivers (at_ url r already) sizes s ↔
      ∃ rest, s = (text r).take (sizes 0).toNat ++ rest ∧
        Delivers (at_ url r (already + ((text r).take (sizes 0).toNat).length))
          (fun k => sizes (k + 1)) rest := by
  have before : already < r.length := by
    have := List.length_pos_iff.mpr something
    omega
  have piece := piece_ne_nil (positive 0) (Nat.zero_lt_of_lt before)
  have read := @readRawData_at url r already (sizes 0) short (positive 0) before
  have moved (n : Nat) (fits : already + n ≤ r.length) :
      { at_ url r already with bytesAlreadyRead := toInt32 (already + n) } =
        at_ url r (already + n) := by
    have small := toInt32_of_nat (Nat.lt_of_le_of_lt fits short)
    rw [Int.natCast_add] at small
    simp only [at_, small, Int.natCast_add]
  constructor
  · intro h
    cases h with
    | done now =>
      rw [read] at now
      exact absurd (congrArg Prod.fst (Except.ok.inj now)) piece
    | more now _ later =>
      rw [read] at now
      cases now
      rw [List.length_append] at left
      rw [moved _ (by omega)] at later
      exact ⟨_, rfl, later⟩
  · rintro ⟨rest, rfl, later⟩
    rw [List.length_append] at left
    apply Delivers.more read piece
    rw [moved _ (by omega)]
    exact later

theorem delivers_iff {sizes : Nat → Int} {s : Str} {already : Nat} (short : r.length < 2 ^ 31)
    (positive : ∀ k, 0 < sizes k) (left : already + s.length = r.length) :
    Delivers (at_ url r already) sizes s ↔ ∃ k, (beginnings r sizes k).flatten = s := by
  -- The rest of the page gets shorter with every call.
  induction size : s.length using Nat.strongRecOn generalizing s sizes already with
  | _ n ih =>
    by_cases nothing : s = []
    · have here : already = r.length := by simpa [nothing] using left
      subst here nothing
      exact ⟨fun _ => ⟨0, rfl⟩, fun _ => (delivers_at_end short positive).mpr rfl⟩
    · have piece : (text r).take (sizes 0).toNat ≠ [] := by
        apply piece_ne_nil (positive 0)
        have := List.length_pos_iff.mpr nothing
        omega
      have shorter := List.length_pos_iff.mpr piece
      have next (rest : Str) (same : s = (text r).take (sizes 0).toNat ++ rest) :
          Delivers (at_ url r (already + ((text r).take (sizes 0).toNat).length))
              (fun k => sizes (k + 1)) rest ↔
            ∃ k, (beginnings r (fun k => sizes (k + 1)) k).flatten = rest := by
        rw [same, List.length_append] at left size
        exact ih rest.length (by omega) (fun k => positive (k + 1)) (by omega) rfl
      rw [delivers_at short positive left nothing]
      constructor
      · rintro ⟨rest, same, later⟩
        obtain ⟨k, rfl⟩ := (next rest same).mp later
        exact ⟨k + 1, by rw [beginnings_succ, List.flatten_cons, ← same]⟩
      · rintro ⟨k, same⟩
        cases k with
        | zero => exact absurd same.symm nothing
        | succ k =>
          rw [beginnings_succ, List.flatten_cons] at same
          exact ⟨_, same.symm, (next _ same.symm).mpr ⟨k, rfl⟩⟩

/-- As much of the page as a buffer has room for. -/
def room (r : Str) (size : Int) : Nat := min size.toNat r.length

/-- Where the `k`-th buffer begins in the page. -/
def offset (r : Str) (sizes : Nat → Int) : Nat → Nat
  | 0 => 0
  | k + 1 => offset r sizes k + room r (sizes k)

/-- The first `k` buffers have room for exactly the page, and wherever one of them
begins the page repeats its beginning, with NULs from its first NUL on. -/
structure Repeats (r : Str) (sizes : Nat → Int) (k : Nat) : Prop where
  fills : offset r sizes k = r.length
  again : ∀ i < k, (r.drop (offset r sizes i)).take (room r (sizes i)) =
    (text r).take (room r (sizes i))

theorem offset_succ (r : Str) (sizes : Nat → Int) (k : Nat) :
    offset r sizes (k + 1) = room r (sizes 0) + offset r (fun i => sizes (i + 1)) k := by
  induction k with
  | zero => simp [offset]
  | succ k ih => rw [offset, ih, offset, Nat.add_assoc]

theorem take_room (r : Str) (size : Int) :
    (text r).take (room r size) = (text r).take size.toNat := by
  rw [room, ← text_length r, ← List.take_eq_take_min]

theorem flatten_beginnings_iff {sizes : Nat → Int} {s : Str} {k : Nat} :
    (beginnings r sizes k).flatten = s ↔ offset r sizes k = s.length ∧
      ∀ i < k, (s.drop (offset r sizes i)).take (room r (sizes i)) =
        (text r).take (room r (sizes i)) := by
  induction k generalizing sizes s with
  | zero =>
    constructor
    · rintro rfl
      exact ⟨rfl, nofun⟩
    · rintro ⟨length, _⟩
      exact (List.eq_nil_of_length_eq_zero length.symm).symm
  | succ k ih =>
    have size : ((text r).take (room r (sizes 0))).length = room r (sizes 0) := by
      rw [List.length_take, text_length, room]
      omega
    rw [beginnings_succ, List.flatten_cons, ← take_room, offset_succ]
    constructor
    · rintro rfl
      obtain ⟨length, again⟩ := ih.mp rfl
      rw [List.length_append, size, length]
      refine ⟨rfl, fun i below => ?_⟩
      cases i with
      | zero => exact List.take_left' size
      | succ i =>
        rw [offset_succ, ← List.drop_drop, List.drop_left' size]
        exact again i (Nat.lt_of_succ_lt_succ below)
    · rintro ⟨length, again⟩
      have first : s.take (room r (sizes 0)) = (text r).take (room r (sizes 0)) :=
        again 0 (Nat.zero_lt_succ k)
      have rest : (beginnings r (fun i => sizes (i + 1)) k).flatten =
          s.drop (room r (sizes 0)) := by
        apply ih.mpr
        constructor
        · rw [List.length_drop]
          omega
        · intro i below
          rw [List.drop_drop, ← offset_succ]
          exact again (i + 1) (Nat.succ_lt_succ below)
      rw [rest, ← first, List.take_append_drop]

/-- A page that fits the first buffer is spoilt by a byte behind a NUL. -/
theorem repeats_of_fits {sizes : Nat → Int} (something : r ≠ []) (fits : r.length ≤ sizes 0) :
    (∃ k, Repeats r sizes k) ↔ text r = r := by
  have all : room r (sizes 0) = r.length := by
    unfold room
    omega
  constructor
  · rintro ⟨k, fills, again⟩
    cases k with
    | zero => exact absurd (List.eq_nil_of_length_eq_zero fills.symm) something
    | succ k =>
      have first : r.take (room r (sizes 0)) = (text r).take (room r (sizes 0)) :=
        again 0 (Nat.zero_lt_succ k)
      rw [all, List.take_length, ← text_length r, List.take_length] at first
      exact first.symm
  · intro same
    refine ⟨1, by rw [offset_succ, all]; rfl, fun i below => ?_⟩
    cases Nat.lt_one_iff.mp below
    rw [same]
    rfl

/-- Read with these buffer sizes, the page comes out as Java rendered it. -/
def Intact (invoke : Str → Option Str) (url r : Str) (sizes : Nat → Int) : Prop :=
  ∃ job, startAsync invoke { url } = .ok job ∧ Delivers job sizes r

theorem intact_iff_flatten {invoke : Str → Option Str} (answer : invoke url = some r)
    (short : r.length < 2 ^ 31) {sizes : Nat → Int} (positive : ∀ k, 0 < sizes k) :
    Intact invoke url r sizes ↔ ∃ k, (beginnings r sizes k).flatten = r := by
  have started : Intact invoke url r sizes ↔ Delivers (at_ url r 0) sizes r := by
    simp only [Intact, startAsync, answer, Except.ok.injEq, exists_eq_left']
    rfl
  rw [started, delivers_iff short positive (Nat.zero_add _)]

/-- A page comes out intact exactly when the first buffers have room for it and no more,
and it repeats its beginning wherever one of them begins. -/
theorem page_intact_iff (invoke : Str → Option Str) (url r : Str) (answer : invoke url = some r)
    (short : r.length < 2 ^ 31) (sizes : Nat → Int) (positive : ∀ k, 0 < sizes k) :
    Intact invoke url r sizes ↔ ∃ k, Repeats r sizes k := by
  rw [intact_iff_flatten answer short positive]
  constructor
  · rintro ⟨k, whole⟩
    obtain ⟨fills, again⟩ := flatten_beginnings_iff.mp whole
    exact ⟨k, fills, again⟩
  · rintro ⟨k, fills, again⟩
    exact ⟨k, flatten_beginnings_iff.mpr ⟨fills, again⟩⟩

def answerWith (page : Str) : Str → Option Str := fun _ => some page

def newTab : Str := "<b>".toList

theorem page_intact_iff_newTab :
    Intact (answerWith newTab) "krypton://new".toList newTab fun _ => 32768 :=
  (page_intact_iff (answerWith newTab) "krypton://new".toList newTab rfl (by decide)
    (fun _ => 32768) fun _ => by decide).mpr ⟨1, by decide, by decide⟩

theorem offset_const (r : Str) (size : Int) (k : Nat) :
    offset r (fun _ => size) k = k * room r size := by
  induction k with
  | zero => simp [offset]
  | succ k ih => rw [offset, ih, Nat.succ_mul]

def longPage : Str := List.replicate 40000 'a'

/-- Every buffer gets the beginning of the page, and together they get too much. -/
theorem long_page_repeats : ¬ ∀ (invoke : Str → Option Str) (url r : Str) (sizes : Nat → Int),
    invoke url = some r → r.length < 2 ^ 31 → (∀ k, 0 < sizes k) → Intact invoke url r sizes := by
  intro always
  have length : longPage.length = 40000 := List.length_replicate
  have short : longPage.length < 2 ^ 31 := by omega
  have answer : answerWith longPage "krypton://new".toList = some longPage := rfl
  have positive (k : Nat) : (0 : Int) < (fun _ : Nat => 32768) k := by
    dsimp only
    omega
  obtain ⟨k, whole⟩ :=
    (intact_iff_flatten answer short positive).mp (always _ _ _ _ answer short positive)
  have whole_buffer : room longPage 32768 = 32768 := by
    rw [room, length]
    rfl
  have fills := (flatten_beginnings_iff.mp whole).1
  rw [offset_const, whole_buffer, length] at fills
  omega

end URLRequestSeaturtleJob

end Seaturtle
