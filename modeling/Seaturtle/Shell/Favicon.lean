import Seaturtle.Ints
import Seaturtle.Lib.Nearest
import Seaturtle.Lib.Runs
import Seaturtle.Url

/-! The favicon of a page: the one pass over the candidates that it lists. -/
namespace Seaturtle.Favicon

inductive IconType where
  | invalidIcon
  | favicon
  | touchIcon
  | touchPrecomposedIcon
  deriving DecidableEq

/-- A `gfx::Size`. -/
structure Size where
  width : Int
  height : Int
  deriving DecidableEq

structure FaviconURL where
  iconUrl : Gurl
  iconType : IconType
  iconSizes : List Size
  deriving DecidableEq

def kIdealFaviconSize : Int := 48

/-- The page picks the sizes, and their sum may leave the range of an `int`. -/
def currentSizeDiff (s : Size) : Int :=
  (kIdealFaviconSize - (toInt32 (s.width + s.height)).tdiv 2).natAbs

def FaviconURL.currentIsTouch (f : FaviconURL) : Bool :=
  f.iconType == .touchIcon || f.iconType == .touchPrecomposedIcon

/-- The variables of the loop; `bestCandidate` is the URL that the pointer refers to. -/
structure Best where
  bestCandidate : Option Gurl := none
  bestSizeDiff : Int := intMax
  bestIsTouch : Bool := false
  deriving DecidableEq

def considerSize (f : FaviconURL) (best : Best) (s : Size) : Best :=
  if currentSizeDiff s < best.bestSizeDiff then
    ⟨some f.iconUrl, currentSizeDiff s, f.currentIsTouch⟩
  else best

def consider (best : Best) (f : FaviconURL) : Best :=
  if f.iconType = .invalidIcon then best
  else if best.bestCandidate = none then
    -- `best_size_diff` stays what it is here, and at the next branch
    { best with bestCandidate := some f.iconUrl, bestIsTouch := f.currentIsTouch }
  else if !best.bestIsTouch && f.currentIsTouch then
    { best with bestCandidate := some f.iconUrl, bestIsTouch := f.currentIsTouch }
  else if best.bestIsTouch && !f.currentIsTouch then best
  else f.iconSizes.foldl (considerSize f) best

/-- What `favicon_candidate_` is afterwards. -/
def didUpdateFaviconURL (candidates : List FaviconURL) (faviconCandidate : Option Gurl) :
    Option Gurl :=
  match (candidates.foldl consider {}).bestCandidate with
  | none => faviconCandidate
  | some url => some url

/-- The part of `DidNavigateMainFrame` that is about the favicon. -/
def didNavigateMainFrame (_ : Option Gurl) : Option Gurl := none

/-- The call of `DownloadImage`, and the page's URL that `FaviconDownloaded` is bound to. -/
structure ImageDownload where
  url : Gurl
  isFavicon : Bool
  maxBitmapSize : Int
  siteUrl : Gurl
  deriving DecidableEq

def downloadFavicon (siteUrl : Gurl) (faviconCandidate : Option Gurl) : Option ImageDownload :=
  faviconCandidate.map fun iconUrl => ⟨iconUrl, true, kIdealFaviconSize, siteUrl⟩

/-! What the best candidate of a list is. -/

/-- An integer, or infinite. -/
def Distance : Type := WithTop Int

namespace Distance

instance : LinearOrder Distance := @WithTop.linearOrder Int Int.instLinearOrder
instance : OrderTop Distance := @WithTop.instOrderTop Int Int.instLEInt

def of (n : Int) : Distance := WithTop.some n

theorem of_lt_of {m n : Int} : of m < of n ↔ m < n := WithTop.coe_lt_coe

theorem of_lt_top (n : Int) : of n < ⊤ := WithTop.coe_lt_top n

end Distance

def FaviconURL.valid (f : FaviconURL) : Bool := f.iconType != .invalidIcon

def preferred (candidates : List FaviconURL) : List FaviconURL :=
  let all := candidates.filter (·.valid)
  if all.any (·.currentIsTouch) then all.filter (·.currentIsTouch) else all

def sizeDiff (s : Size) : Int := (kIdealFaviconSize - (s.width + s.height).tdiv 2).natAbs

def distance (f : FaviconURL) : Distance :=
  Nearest.least (fun s => .of (sizeDiff s)) f.iconSizes

/-- The first of the nearest candidates of the preferred class. -/
def nearest (candidates : List FaviconURL) : Option FaviconURL :=
  (preferred candidates).argmin distance

/-- The candidates whose sizes the loop has looked at when it takes the first of the class:
those behind the first valid one, up to the first touch icon. -/
def passedOver (candidates : List FaviconURL) : List FaviconURL :=
  let all := candidates.filter (·.valid)
  if all.any (·.currentIsTouch) then (all.takeWhile (!·.currentIsTouch)).tail else []

def comparedDistance (f : FaviconURL) : Distance :=
  Nearest.least (fun s => .of (currentSizeDiff s)) f.iconSizes

/-- What a later candidate has to be nearer than, to replace the first of its class. -/
def bar (candidates : List FaviconURL) : Distance :=
  Nearest.least (fun s => .of (currentSizeDiff s)) ((passedOver candidates).flatMap (·.iconSizes))

/-! The loop against the loop that keeps the nearest of one class. -/

theorem currentSizeDiff_lt (s : Size) : currentSizeDiff s < intMax := by
  have bounds := toInt32_bounds (s.width + s.height)
  unfold currentSizeDiff kIdealFaviconSize intMax
  generalize toInt32 (s.width + s.height) = sum at bounds ⊢
  have half : (sum.tdiv 2).natAbs = sum.natAbs / 2 := Int.natAbs_tdiv sum 2
  omega

/-- The loop holds a URL of this class; `INT_MAX` is as good as infinite. -/
structure Holds (touch : Bool) (best : Best) (held : Gurl × Distance) : Prop where
  candidate : best.bestCandidate = some held.1
  isTouch : best.bestIsTouch = touch
  nearer (s : Size) :
    currentSizeDiff s < best.bestSizeDiff ↔ Distance.of (currentSizeDiff s) < held.2

theorem Holds.chosen {touch : Bool} {best : Best} {held : Gurl × Distance}
    (h : Holds touch best held) : best.bestCandidate ≠ none := by
  rw [h.candidate]
  exact Option.some_ne_none _

theorem FaviconURL.real {f : FaviconURL} (valid : f.valid = true) : f.iconType ≠ .invalidIcon :=
  bne_iff_ne.mp valid

abbrev turn (held : Gurl × Distance) (f : FaviconURL) : Gurl × Distance :=
  Nearest.keep (·.iconUrl) comparedDistance held f

theorem considerSize_holds {f : FaviconURL} {best : Best} {held : Gurl × Distance}
    (before : Holds f.currentIsTouch best held) (s : Size) :
    Holds f.currentIsTouch (considerSize f best s)
      (Nearest.keep (fun _ => f.iconUrl) (fun s => Distance.of (currentSizeDiff s)) held s) := by
  unfold considerSize Nearest.keep
  by_cases nearer : currentSizeDiff s < best.bestSizeDiff
  · rw [if_pos nearer, if_pos ((before.nearer s).mp nearer)]
    constructor
    · rfl
    · rfl
    · intro other
      exact Distance.of_lt_of.symm
  · rw [if_neg nearer, if_neg (fun h => nearer ((before.nearer s).mpr h))]
    exact before

theorem considerSizes_holds {f : FaviconURL} {best : Best} {held : Gurl × Distance}
    (before : Holds f.currentIsTouch best held) :
    Holds f.currentIsTouch (f.iconSizes.foldl (considerSize f) best) (turn held f) := by
  have places := Nearest.foldl_keep_places f.iconUrl (fun s => Distance.of (currentSizeDiff s))
    held f.iconSizes
  change _ = turn held f at places
  rw [← places]
  exact List.foldl_rel before fun s _ _ _ h => considerSize_holds h s

/-- A candidate of the class that is held is compared, size by size. -/
theorem consider_same {touch : Bool} {f : FaviconURL} {best : Best} {held : Gurl × Distance}
    (valid : f.valid = true) (same : f.currentIsTouch = touch) (before : Holds touch best held) :
    Holds touch (consider best f) (turn held f) := by
  subst same
  have compared : consider best f = f.iconSizes.foldl (considerSize f) best := by
    unfold consider
    rw [if_neg (FaviconURL.real valid), if_neg before.chosen, before.isTouch, Bool.not_and_self,
      Bool.and_not_self]
    rfl
  rw [compared]
  exact considerSizes_holds before

theorem foldl_same {touch : Bool} {fs : List FaviconURL} {best : Best}
    {held : Gurl × Distance} (valid : ∀ f ∈ fs, f.valid = true)
    (same : ∀ f ∈ fs, f.currentIsTouch = touch) (before : Holds touch best held) :
    Holds touch (fs.foldl consider best) (fs.foldl turn held) :=
  List.foldl_rel before fun f member _ _ h => consider_same (valid f member) (same f member) h

/-- Once a touch icon is held, the others are passed. -/
theorem foldl_touch {fs : List FaviconURL} {best : Best} {held : Gurl × Distance}
    (valid : ∀ f ∈ fs, f.valid = true) (before : Holds true best held) :
    Holds true (fs.foldl consider best) ((fs.filter (·.currentIsTouch)).foldl turn held) := by
  rw [List.foldl_filter]
  apply List.foldl_rel before
  intro f member best held h
  cases kind : f.currentIsTouch with
  | true =>
    rw [if_pos rfl]
    exact consider_same (valid f member) kind h
  | false =>
    have passed : consider best f = best := by
      simp [consider, FaviconURL.real (valid f member), h.chosen, h.isTouch, kind]
    rw [passed, if_neg Bool.false_ne_true]
    exact h

/-- The first touch icon takes the place of any other. -/
theorem consider_upgrade {t : FaviconURL} {best : Best} {held : Gurl × Distance}
    (valid : t.valid = true) (touch : t.currentIsTouch = true) (before : Holds false best held) :
    Holds true (consider best t) (t.iconUrl, held.2) := by
  have taken : consider best t =
      { best with bestCandidate := some t.iconUrl, bestIsTouch := true } := by
    simp [consider, FaviconURL.real valid, before.chosen, before.isTouch, touch]
  rw [taken]
  exact ⟨rfl, rfl, before.nearer⟩

theorem consider_first {f : FaviconURL} (valid : f.valid = true) :
    Holds f.currentIsTouch (consider {} f) (f.iconUrl, ⊤) := by
  have taken : consider {} f =
      { bestCandidate := some f.iconUrl, bestIsTouch := f.currentIsTouch } := by
    simp [consider, FaviconURL.real valid]
  rw [taken]
  constructor
  · rfl
  · rfl
  · intro s
    exact iff_of_true (currentSizeDiff_lt s) (Distance.of_lt_top _)

theorem foldl_valid (candidates : List FaviconURL) (best : Best) :
    (candidates.filter (·.valid)).foldl consider best = candidates.foldl consider best := by
  rw [List.foldl_filter]
  congr 1
  funext best f
  cases valid : f.valid with
  | true => rfl
  | false =>
    have invalid : f.iconType = .invalidIcon := by simpa [FaviconURL.valid] using valid
    exact (if_pos invalid).symm

/-! Where the candidates split at the first touch icon. -/

theorem no_touch {candidates : List FaviconURL}
    (none_touch : ∀ f ∈ candidates.filter (·.valid), f.currentIsTouch = false) :
    preferred candidates = candidates.filter (·.valid) ∧ passedOver candidates = [] := by
  have never : ¬ (candidates.filter (·.valid)).any (·.currentIsTouch) = true := by
    intro found
    obtain ⟨f, member, touch⟩ := List.any_eq_true.mp found
    rw [none_touch f member] at touch
    cases touch
  unfold preferred passedOver
  exact ⟨if_neg never, if_neg never⟩

theorem first_touch {candidates before after : List FaviconURL} {t : FaviconURL}
    (split : candidates.filter (·.valid) = before ++ t :: after)
    (others : ∀ f ∈ before, f.currentIsTouch = false) (touch : t.currentIsTouch = true) :
    preferred candidates = t :: after.filter (·.currentIsTouch) ∧
      passedOver candidates = before.tail := by
  have found : (before ++ t :: after).any (·.currentIsTouch) = true :=
    List.any_eq_true.mpr ⟨t, by simp, touch⟩
  have none_before : before.filter (·.currentIsTouch) = [] := by
    rw [List.filter_eq_nil_iff]
    intro f member
    rw [others f member]
    exact Bool.false_ne_true
  have upto : (before ++ t :: after).takeWhile (!·.currentIsTouch) = before := by
    rw [List.takeWhile_append_of_pos, List.takeWhile_cons_of_neg, List.append_nil]
    · simp [touch]
    · intro f member
      rw [others f member]
      rfl
  unfold preferred passedOver
  simp only [split, if_pos found, upto, and_true]
  rw [List.filter_append, none_before, List.nil_append, List.filter_cons_of_pos touch]

theorem touch_split (fs : List FaviconURL) :
    (∀ f ∈ fs, f.currentIsTouch = false) ∨
      ∃ before t after, fs = before ++ t :: after ∧
        (∀ f ∈ before, f.currentIsTouch = false) ∧ t.currentIsTouch = true := by
  cases found : fs.find? (·.currentIsTouch) with
  | none =>
    left
    intro f member
    exact Bool.eq_false_iff.mpr (List.find?_eq_none.mp found f member)
  | some t =>
    right
    obtain ⟨touch, before, after, split, others⟩ := List.find?_eq_some_iff_append.mp found
    refine ⟨before, t, after, split, ?_, touch⟩
    intro f member
    exact Bool.not_eq_true' _ |>.mp (others f member)

theorem valid_of_split {candidates fs : List FaviconURL}
    (split : candidates.filter (·.valid) = fs) : ∀ f ∈ fs, f.valid = true := by
  subst split
  intro f member
  exact (List.mem_filter.mp member).2

theorem foldl_first {candidates rest : List FaviconURL} {first : FaviconURL}
    (split : candidates.filter (·.valid) = first :: rest) :
    candidates.foldl consider {} = rest.foldl consider (consider {} first) := by
  rw [← foldl_valid, split, List.foldl_cons]

theorem holds_no_touch {candidates rest : List FaviconURL} {first : FaviconURL}
    (split : candidates.filter (·.valid) = first :: rest)
    (none_touch : ∀ f ∈ first :: rest, f.currentIsTouch = false) :
    Holds false (candidates.foldl consider {}) (rest.foldl turn (first.iconUrl, ⊤)) := by
  have valid := valid_of_split split
  have start := consider_first (valid first List.mem_cons_self)
  rw [none_touch first List.mem_cons_self] at start
  rw [foldl_first split]
  exact foldl_same (fun f member => valid f (List.mem_cons_of_mem _ member))
    (fun f member => none_touch f (List.mem_cons_of_mem _ member)) start

theorem holds_touch_first {candidates after : List FaviconURL} {t : FaviconURL}
    (split : candidates.filter (·.valid) = t :: after) (touch : t.currentIsTouch = true) :
    Holds true (candidates.foldl consider {})
      ((after.filter (·.currentIsTouch)).foldl turn (t.iconUrl, ⊤)) := by
  have valid := valid_of_split split
  have start := consider_first (valid t List.mem_cons_self)
  rw [touch] at start
  rw [foldl_first split]
  exact foldl_touch (fun f member => valid f (List.mem_cons_of_mem _ member)) start

/-- The sizes behind the first candidate are looked at, and their nearest stays in
`best_size_diff` when the touch icon comes. -/
theorem holds_touch_later {candidates before after : List FaviconURL} {other t : FaviconURL}
    (split : candidates.filter (·.valid) = other :: (before ++ t :: after))
    (others : ∀ f ∈ other :: before, f.currentIsTouch = false) (touch : t.currentIsTouch = true) :
    Holds true (candidates.foldl consider {})
      ((after.filter (·.currentIsTouch)).foldl turn
        (t.iconUrl, Nearest.least (fun s => .of (currentSizeDiff s))
          (before.flatMap (·.iconSizes)))) := by
  have valid := valid_of_split split
  have start := consider_first (valid other List.mem_cons_self)
  rw [others other List.mem_cons_self] at start
  have seen := foldl_same (fun f member => valid f (by simp [member]))
    (fun f member => others f (List.mem_cons_of_mem _ member)) start
  have upgraded := consider_upgrade (valid t (by simp)) touch seen
  have seen_least := Nearest.foldl_keep_top (fun f : FaviconURL => f.iconUrl)
    (fun s => Distance.of (currentSizeDiff s)) (·.iconSizes) other.iconUrl before
  change (before.foldl turn (other.iconUrl, ⊤)).2 = _ at seen_least
  rw [seen_least] at upgraded
  rw [foldl_first split, List.foldl_append, List.foldl_cons]
  exact foldl_touch (fun f member => valid f (by simp [member])) upgraded

theorem chosen_none {candidates : List FaviconURL} (empty : preferred candidates = []) :
    (candidates.foldl consider {}).bestCandidate = none := by
  have nothing : candidates.filter (·.valid) = [] := by
    rcases touch_split (candidates.filter (·.valid)) with
      none_touch | ⟨_, t, _, split, others, touch⟩
    · rw [← (no_touch none_touch).1, empty]
    · rw [(first_touch split others touch).1] at empty
      cases empty
  rw [← foldl_valid, nothing]
  rfl

/-- The first of the preferred class is chosen, unless a later one is nearer than the bar. -/
theorem chosen_some {candidates later : List FaviconURL} {first : FaviconURL}
    (class_ : preferred candidates = first :: later) :
    (candidates.foldl consider {}).bestCandidate =
      some (later.foldl turn (first.iconUrl, bar candidates)).1 := by
  rcases touch_split (candidates.filter (·.valid)) with
    none_touch | ⟨before, t, after, split, others, touch⟩
  · obtain ⟨all, none_passed⟩ := no_touch none_touch
    rw [class_] at all
    rw [← all] at none_touch
    rw [bar, none_passed]
    exact (holds_no_touch all.symm none_touch).candidate
  · obtain ⟨touches, passed⟩ := first_touch split others touch
    rw [class_] at touches
    obtain ⟨rfl, rfl⟩ := List.cons.inj touches
    rw [bar, passed]
    cases before with
    | nil => exact (holds_touch_first split touch).candidate
    | cons other before => exact (holds_touch_later split others touch).candidate

theorem preferred_eq_nil {candidates : List FaviconURL} :
    preferred candidates = [] ↔ ∀ f ∈ candidates, f.iconType = .invalidIcon := by
  have class_ : preferred candidates = [] ↔ candidates.filter (·.valid) = [] := by
    rcases touch_split (candidates.filter (·.valid)) with
      none_touch | ⟨_, t, _, split, others, touch⟩
    · rw [(no_touch none_touch).1]
    · rw [(first_touch split others touch).1, split]
      simp
  rw [class_, List.filter_eq_nil_iff]
  constructor
  · intro h f member
    simpa [FaviconURL.valid] using h f member
  · intro h f member
    simp [FaviconURL.valid, h f member]

/-- The candidate is set where there is a valid one, and then to the best. -/
def BestChosen (candidates : List FaviconURL) (before after : Option Gurl) : Prop :=
  ((∀ f ∈ candidates, f.iconType = .invalidIcon) → after = before) ∧
  ((∃ f ∈ candidates, f.iconType ≠ .invalidIcon) →
    ∃ best, nearest candidates = some best ∧ after = some best.iconUrl)

/-- No sum of a width and a height overflows. -/
def InRange (candidates : List FaviconURL) : Prop :=
  ∀ f ∈ preferred candidates, ∀ s ∈ f.iconSizes,
    -(2 ^ 31) ≤ s.width + s.height ∧ s.width + s.height < 2 ^ 31

/-- Where a later candidate of the class is nearer than the first one, a later one is nearer
than what the loop compares with, and the other way round. -/
def SidesAgree (candidates : List FaviconURL) : Prop :=
  ∀ first later, preferred candidates = first :: later →
    ((∃ l ∈ later, distance l < distance first) ↔ ∃ l ∈ later, distance l < bar candidates)

def DistinctUrls (candidates : List FaviconURL) : Prop :=
  ((preferred candidates).map (·.iconUrl)).Nodup

theorem nearest_some {candidates later : List FaviconURL} {first : FaviconURL}
    (class_ : preferred candidates = first :: later) :
    ∃ best, nearest candidates = some best := by
  apply Option.ne_none_iff_exists'.mp
  intro none_best
  rw [List.argmin_eq_none.mp none_best] at class_
  cases class_

theorem bestChosen_nil {candidates : List FaviconURL} (class_ : preferred candidates = [])
    (before : Option Gurl) :
    BestChosen candidates before (didUpdateFaviconURL candidates before) := by
  constructor
  · intro _
    rw [didUpdateFaviconURL, chosen_none class_]
  · rintro ⟨f, member, valid⟩
    exact absurd (preferred_eq_nil.mp class_ f member) valid

theorem bestChosen_cons {candidates later : List FaviconURL} {first best : FaviconURL}
    (class_ : preferred candidates = first :: later) (is_best : nearest candidates = some best)
    (before : Option Gurl) :
    BestChosen candidates before (didUpdateFaviconURL candidates before) ↔
      (later.foldl turn (first.iconUrl, bar candidates)).1 = best.iconUrl := by
  have result : didUpdateFaviconURL candidates before =
      some (later.foldl turn (first.iconUrl, bar candidates)).1 := by
    rw [didUpdateFaviconURL, chosen_some class_]
  have some_valid : ¬ ∀ f ∈ candidates, f.iconType = .invalidIcon := by
    intro invalid
    rw [preferred_eq_nil.mpr invalid] at class_
    cases class_
  rw [result]
  constructor
  · intro h
    push Not at some_valid
    obtain ⟨chosen, is_chosen, set_chosen⟩ := h.2 some_valid
    rw [is_best] at is_chosen
    cases is_chosen
    exact Option.some.inj set_chosen
  · intro same
    constructor
    · intro invalid
      exact absurd invalid some_valid
    · intro _
      exact ⟨best, is_best, congrArg some same⟩

theorem comparedDistance_eq {f : FaviconURL}
    (in_range : ∀ s ∈ f.iconSizes, -(2 ^ 31) ≤ s.width + s.height ∧ s.width + s.height < 2 ^ 31) :
    comparedDistance f = distance f := by
  apply Nearest.least_congr
  intro s size
  rw [currentSizeDiff, sizeDiff, toInt32_of_range (in_range s size).1 (in_range s size).2]

theorem turns_exact {candidates later : List FaviconURL} {first : FaviconURL}
    (in_range : InRange candidates) (class_ : preferred candidates = first :: later)
    (held : Gurl × Distance) :
    later.foldl turn held = later.foldl (Nearest.keep (·.iconUrl) distance) held := by
  apply List.foldl_ext
  intro held l member
  have listed : l ∈ preferred candidates := by
    rw [class_]
    exact List.mem_cons_of_mem _ member
  have compared := comparedDistance_eq (in_range l listed)
  simp only [turn, Nearest.keep, compared]

theorem later_apart {first : FaviconURL} {later : List FaviconURL}
    (distinct : ((first :: later).map (·.iconUrl)).Nodup) :
    ∀ l ∈ later, l.iconUrl ≠ first.iconUrl := by
  intro l member same
  apply (List.nodup_cons.mp distinct).1
  exact List.mem_map.mpr ⟨l, member, same⟩

theorem sides_choose {candidates : List FaviconURL} (in_range : InRange candidates)
    (sides : SidesAgree candidates) (before : Option Gurl) :
    BestChosen candidates before (didUpdateFaviconURL candidates before) := by
  cases class_ : preferred candidates with
  | nil => exact bestChosen_nil class_ before
  | cons first later =>
    obtain ⟨best, is_best⟩ := nearest_some class_
    rw [bestChosen_cons class_ is_best, turns_exact in_range class_]
    rw [nearest, class_] at is_best
    exact Nearest.finds_nearest is_best (sides first later class_)

theorem chosen_sides {candidates : List FaviconURL} {before : Option Gurl}
    (in_range : InRange candidates) (distinct : DistinctUrls candidates)
    (chosen : BestChosen candidates before (didUpdateFaviconURL candidates before)) :
    SidesAgree candidates := by
  intro first later class_
  obtain ⟨best, is_best⟩ := nearest_some class_
  rw [bestChosen_cons class_ is_best, turns_exact in_range class_] at chosen
  rw [nearest, class_] at is_best
  rw [DistinctUrls, class_] at distinct
  exact Nearest.finds_nearest_only is_best (later_apart distinct) chosen

/-- Without overflow, the best candidate is chosen where the sides agree; and with different
URLs, by which alone the candidates can be told apart afterwards, nowhere else. -/
theorem best_chosen_iff (candidates : List FaviconURL) (before : Option Gurl) :
    (InRange candidates ∧ SidesAgree candidates →
      BestChosen candidates before (didUpdateFaviconURL candidates before)) ∧
    (InRange candidates ∧ DistinctUrls candidates →
      (BestChosen candidates before (didUpdateFaviconURL candidates before) ↔
        SidesAgree candidates)) := by
  constructor
  · rintro ⟨in_range, sides⟩
    exact sides_choose in_range sides before
  · rintro ⟨in_range, distinct⟩
    exact ⟨chosen_sides in_range distinct, fun sides => sides_choose in_range sides before⟩

def iconAt (path : Str) (side : Int) : FaviconURL :=
  ⟨Gurl.parseCanonical ("http://a.com/".toList ++ path), .favicon, [⟨side, side⟩]⟩

/-- The smaller icon comes first. -/
theorem best_chosen_iff_smaller_first :
    let candidates := [iconAt "16.png".toList 16, iconAt "48.png".toList 48]
    InRange candidates ∧ DistinctUrls candidates ∧
      BestChosen candidates none (didUpdateFaviconURL candidates none) := by
  intro candidates
  have class_ : preferred candidates = candidates := by decide
  have in_range : InRange candidates := by
    rw [InRange, class_]
    decide
  have distinct : DistinctUrls candidates := by
    rw [DistinctUrls, class_]
    decide
  refine ⟨in_range, distinct, (best_chosen_iff candidates none).1 ⟨in_range, ?_⟩⟩
  intro first later split
  rw [class_] at split
  obtain ⟨rfl, rfl⟩ := List.cons.inj split
  apply iff_of_true
  · exact ⟨iconAt "48.png".toList 48, List.mem_cons_self, by decide⟩
  · exact ⟨iconAt "48.png".toList 48, List.mem_cons_self, by decide⟩

/-- An icon of just the ideal size comes first, and a smaller one is chosen. -/
theorem ideal_icon_given_up :
    let candidates := [iconAt "48.png".toList 48, iconAt "16.png".toList 16]
    ¬ BestChosen candidates none (didUpdateFaviconURL candidates none) := by
  intro candidates h
  obtain ⟨best, is_best, chosen⟩ := h.2 ⟨iconAt "48.png".toList 48, by decide, by decide⟩
  have first : nearest candidates = some (iconAt "48.png".toList 48) := by decide
  have second : didUpdateFaviconURL candidates none = some (iconAt "16.png".toList 16).iconUrl := by
    decide
  rw [first] at is_best
  cases is_best
  rw [second] at chosen
  revert chosen
  decide

theorem preferred_valid {candidates : List FaviconURL} {f : FaviconURL}
    (member : f ∈ preferred candidates) : f ∈ candidates ∧ f.valid = true := by
  apply List.mem_filter.mp
  simp only [preferred] at member
  split at member
  · exact (List.mem_filter.mp member).1
  · exact member

theorem set_from_list {candidates : List FaviconURL} {before : Option Gurl} {url : Gurl}
    (set_ : didUpdateFaviconURL candidates before = some url) :
    before = some url ∨ ∃ f ∈ candidates, f.valid = true ∧ f.iconUrl = url := by
  unfold didUpdateFaviconURL at set_
  cases class_ : preferred candidates with
  | nil =>
    rw [chosen_none class_] at set_
    exact .inl set_
  | cons first later =>
    rw [chosen_some class_] at set_
    right
    have from_class : ∃ f ∈ first :: later,
        (later.foldl turn (first.iconUrl, bar candidates)).1 = f.iconUrl := by
      rcases Nearest.foldl_keep_mem (·.iconUrl) comparedDistance
        (first.iconUrl, bar candidates) later
        with same | ⟨f, member, same⟩
      · exact ⟨first, List.mem_cons_self, same⟩
      · exact ⟨f, List.mem_cons_of_mem _ member, same⟩
    obtain ⟨f, member, same⟩ := from_class
    rw [← class_] at member
    obtain ⟨listed, valid⟩ := preferred_valid member
    exact ⟨f, listed, valid, same.symm.trans (Option.some.inj set_)⟩

/-! The candidate over the life of a tab. -/

inductive Event where
  | didNavigateMainFrame
  | didUpdateFaviconURL (candidates : List FaviconURL)
  | downloadFavicon (siteUrl : Gurl)

structure Tab where
  faviconCandidate : Option Gurl := none
  downloads : List ImageDownload := []

def step (t : Tab) : Event → Option Tab
  | .didNavigateMainFrame =>
    some { t with faviconCandidate := didNavigateMainFrame t.faviconCandidate }
  | .didUpdateFaviconURL candidates =>
    some { t with faviconCandidate := didUpdateFaviconURL candidates t.faviconCandidate }
  | .downloadFavicon siteUrl =>
    let download := downloadFavicon siteUrl t.faviconCandidate
    some { t with downloads := t.downloads ++ download.toList }

/-- A list that came since the last navigation has a valid icon with this URL. -/
def Offered (past : List Event) (url : Gurl) : Prop :=
  ∃ before candidates after, past = before ++ .didUpdateFaviconURL candidates :: after ∧
    .didNavigateMainFrame ∉ after ∧ ∃ f ∈ candidates, f.valid = true ∧ f.iconUrl = url

def Requested (past : List Event) (d : ImageDownload) : Prop :=
  Runs.Happened (fun before e => e = .downloadFavicon d.siteUrl ∧ Offered before d.url) past

structure OfThePage (past : List Event) (t : Tab) : Prop where
  candidate (url : Gurl) : t.faviconCandidate = some url → Offered past url
  downloads (d : ImageDownload) : d ∈ t.downloads → Requested past d

theorem Offered.later {past : List Event} {url : Gurl} {e : Event} (offered : Offered past url)
    (stays : e ≠ .didNavigateMainFrame) : Offered (past ++ [e]) url := by
  obtain ⟨before, candidates, after, rfl, none_since, icon⟩ := offered
  refine ⟨before, candidates, after ++ [e], by simp, ?_, icon⟩
  intro navigated
  rcases List.mem_append.mp navigated with earlier | now
  · exact none_since earlier
  · exact stays (List.mem_singleton.mp now).symm

theorem step_of_the_page {past : List Event} {t t' : Tab} {e : Event} (h : OfThePage past t)
    (taken : step t e = some t') : OfThePage (past ++ [e]) t' := by
  have earlier : ∀ d ∈ t.downloads, Requested (past ++ [e]) d :=
    fun d member => Runs.happened_concat.mpr (.inl (h.downloads d member))
  cases e with
  | didNavigateMainFrame =>
    cases taken
    constructor
    · intro url unset
      cases unset
    · exact earlier
  | didUpdateFaviconURL candidates =>
    cases taken
    constructor
    · intro url set_
      rcases set_from_list set_ with before | listed
      · exact (h.candidate url before).later nofun
      · exact ⟨past, candidates, [], rfl, List.not_mem_nil, listed⟩
    · exact earlier
  | downloadFavicon siteUrl =>
    cases taken
    constructor
    · intro url unchanged
      exact (h.candidate url unchanged).later nofun
    · intro d member
      rcases List.mem_append.mp member with old | new
      · exact earlier d old
      · obtain ⟨url, held, rfl⟩ := Option.map_eq_some_iff.mp (Option.mem_toList.mp new)
        exact Runs.happened_concat.mpr (.inr ⟨rfl, h.candidate url held⟩)

/-- A download asks for a valid icon that the page has listed since the last navigation. -/
theorem downloads_of_the_page {es : List Event} {t : Tab}
    (reached : Runs.run step {} es = some t) : ∀ d ∈ t.downloads, Requested es d := by
  have start : OfThePage [] {} := by
    constructor
    · intro url unset
      cases unset
    · intro d member
      cases member
  have h :=
    Runs.invariant_history [] start (fun _ _ _ _ h taken => step_of_the_page h taken) reached
  exact h.downloads

end Seaturtle.Favicon
