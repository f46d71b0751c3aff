import Seaturtle.Lib.SuffixWalk

/-! Strings and URLs. A `std::string` is the list of its bytes, each written as
the character with that code. URL parsing is not modelled: a `GURL` is what its
accessors return, and the parser is a parameter where the code calls it. -/
namespace Seaturtle

abbrev Str := List Char

/-- `base::StringToLowerASCII` changes `A` to `Z` only, and so does `Char.toLower`. -/
def stringToLowerASCII (s : Str) : Str := s.map Char.toLower

theorem toLower_toLower (c : Char) : c.toLower.toLower = c.toLower := by
  have lower : ¬ (c.toLower.val ≥ 'A'.val ∧ c.toLower.val ≤ 'Z'.val) := by
    unfold Char.toLower
    split
    · next upper =>
      simp only [ge_iff_le, UInt32.le_iff_toNat_le, Char.reduceVal, UInt32.toNat_add,
        UInt32.reduceToNat, UInt32.reduceSub] at upper ⊢
      omega
    · next other => exact other
  exact dif_neg lower

theorem lower_lower (s : Str) :
    stringToLowerASCII (stringToLowerASCII s) = stringToLowerASCII s := by
  unfold stringToLowerASCII
  rw [List.map_map]
  apply List.map_congr_left
  intro c _
  exact toLower_toLower c

theorem lower_of_suffix {s d : Str} (h : stringToLowerASCII s = s) (suffix : d <:+ s) :
    stringToLowerASCII d = d := by
  obtain ⟨pre, rfl⟩ := suffix
  rw [stringToLowerASCII, List.map_append] at h
  exact (List.append_inj h (List.length_map _)).2

/-- A `base::hash_map`, by the content of its keys. -/
abbrev HashMap (κ ν : Type) := κ → Option ν

namespace HashMap
variable {κ ν : Type}

def empty : HashMap κ ν := fun _ => none

def set [DecidableEq κ] (map : HashMap κ ν) (key : κ) (value : ν) : HashMap κ ν :=
  fun k => if k = key then some value else map k

def erase [DecidableEq κ] (map : HashMap κ ν) (key : κ) : HashMap κ ν :=
  fun k => if k = key then none else map k

@[simp] theorem empty_apply (k : κ) : (empty : HashMap κ ν) k = none := rfl

theorem set_apply [DecidableEq κ] (map : HashMap κ ν) (key k : κ) (value : ν) :
    map.set key value k = if k = key then some value else map k := rfl

theorem erase_apply [DecidableEq κ] (map : HashMap κ ν) (key k : κ) :
    map.erase key k = if k = key then none else map k := rfl

theorem set_some [DecidableEq κ] {map : HashMap κ ν} {key k : κ} {value v : ν}
    (found : map.set key value k = some v) :
    (k = key ∧ value = v) ∨ (k ≠ key ∧ map k = some v) := by
  rw [set_apply] at found
  split at found
  · next here => exact .inl ⟨here, Option.some.inj found⟩
  · next other => exact .inr ⟨other, found⟩

theorem erase_some [DecidableEq κ] {map : HashMap κ ν} {key k : κ} {v : ν}
    (found : map.erase key k = some v) : k ≠ key ∧ map k = some v := by
  rw [erase_apply] at found
  split at found
  · cases found
  · next other => exact ⟨other, found⟩

end HashMap

/-- What the accessors of a `GURL` return: `spec()`, `is_valid()`, `scheme()`,
`host()` and `path()`. -/
structure Gurl where
  spec : Str
  isValid : Bool
  scheme : Str
  host : Str
  path : Str
  deriving DecidableEq

def kHttp : Str := "http".toList
def kHttps : Str := "https".toList
def kKryptonScheme : Str := "krypton".toList

namespace Gurl

def schemeIs (url : Gurl) (scheme : Str) : Bool := url.scheme == scheme

theorem not_https_of_http {url : Gurl} (http : url.scheme = kHttp) :
    url.schemeIs kHttps = false := by
  rw [schemeIs, http]
  decide

/-- The host is `d` or ends with a dot and `d`; no host is below the empty domain. -/
def domainIs (url : Gurl) (d : Str) : Bool :=
  !d.isEmpty && decide (SuffixWalk.Under '.' d url.host)

theorem domainIs_iff (url : Gurl) (d : Str) :
    url.domainIs d = true ↔ d ≠ [] ∧ SuffixWalk.Under '.' d url.host := by
  simp [domainIs]

/-- The parser on URLs that are already in the canonical form `scheme://host/path`. -/
def parseCanonical (spec : Str) : Gurl :=
  let rest := (spec.dropWhile (· != ':')).drop 3
  ⟨spec, true, spec.takeWhile (· != ':'), rest.takeWhile (· != '/'), rest.dropWhile (· != '/')⟩

end Gurl

def lowerHost (url : Gurl) : Str := stringToLowerASCII url.host

end Seaturtle
