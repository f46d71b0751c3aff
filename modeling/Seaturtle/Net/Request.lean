import Seaturtle.Url
import Mathlib.Data.Finset.Insert

/-! What the code reads and writes of a `net::URLRequest`. -/
namespace Seaturtle

inductive NetError where
  | ok
  | errBlockedByClient
  | errUnsafeRedirect
  deriving DecidableEq

abbrev RewriteUserData := Finset Str

structure URLRequest where
  url : Gurl
  firstPartyForCookies : Gurl
  /-- `GetUserData("seaturtle-https-rewrite")`, null on a new request. -/
  rewriteUserData : Option RewriteUserData := none
  /-- Whether `GetUserData("seaturtle-autocomplete-request")` is set. -/
  autocompleteRequest : Bool := false
  /-- `GetChildID()` and `GetRouteID()` of its `ResourceRequestInfo`, where it has one. -/
  resourceRequestInfo : Option (Int × Int) := none
  referrer : Str := []
  deriving DecidableEq

namespace URLRequest

def prevRewrites (request : URLRequest) : Finset Str := request.rewriteUserData.getD ∅

def recordRewrite (request : URLRequest) : URLRequest :=
  { request with rewriteUserData := some (insert request.url.spec request.prevRewrites) }

@[simp] theorem recordRewrite_url (request : URLRequest) :
    request.recordRewrite.url = request.url := rfl

@[simp] theorem recordRewrite_prevRewrites (request : URLRequest) :
    request.recordRewrite.prevRewrites = insert request.url.spec request.prevRewrites := rfl

/-- The first request of a page, its own first party. -/
def visit (spec : Str) : URLRequest where
  url := Gurl.parseCanonical spec
  firstPartyForCookies := Gurl.parseCanonical spec

theorem visit_fresh (spec : Str) : (visit spec).url.spec ∉ (visit spec).prevRewrites :=
  Finset.notMem_empty _

end URLRequest

def homePage : URLRequest := .visit "http://a.com/".toList

end Seaturtle
