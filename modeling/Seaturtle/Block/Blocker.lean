import Seaturtle.Url
import Seaturtle.Settings

/-! The blocker of the browser process: the domain blacklist and the whitelist.
Map keys are compared by their content; `Block.Storage` has what keeps their bytes alive. -/
namespace Seaturtle

namespace Blocking

structure Rule where
  domain : Str := []
  blockThirdParty : Bool := false
  selector : Str := []
  deriving DecidableEq

structure RuleList where
  rule : List Rule := []
  deriving DecidableEq

end Blocking

structure WhitelistedHost where
  host : Str := []
  path : List Str := []
  deriving DecidableEq

structure UpdateBlockingWhitelist where
  whitelistedHost : List WhitelistedHost := []
  deriving DecidableEq

abbrev WhitelistPaths := List Str
abbrev WhitelistMap := HashMap Str WhitelistPaths

structure Blocker where
  domainBlacklist : HashMap Str Str := .empty
  whitelist : WhitelistMap := .empty

namespace Blocker

/-- One entry of the message: a host already in the map gets the paths appended. -/
def addWhitelistedHost (whitelist : WhitelistMap) (wh : WhitelistedHost) : WhitelistMap :=
  let paths := wh.path.map stringToLowerASCII
  let host := stringToLowerASCII wh.host
  match whitelist host with
  | none => whitelist.set host paths
  | some currentPaths => whitelist.set host (currentPaths ++ paths)

def updateWhitelist (b : Blocker) (ubw : UpdateBlockingWhitelist) : Blocker :=
  { b with whitelist := ubw.whitelistedHost.foldl addWhitelistedHost .empty }

def isWhitelisted (b : Blocker) (url : Gurl) : Bool :=
  if url.schemeIs kKryptonScheme then true
  else match b.whitelist (lowerHost url) with
    | none => false
    | some paths => paths.isEmpty || paths.contains (stringToLowerASCII url.path)

def addRule (blacklist : HashMap Str Str) (rule : Blocking.Rule) : HashMap Str Str :=
  if rule.blockThirdParty then blacklist.set rule.domain rule.domain else blacklist

def updateRulesForBrowserProcess (b : Blocker) (rl : Blocking.RuleList) : Blocker :=
  { b with domainBlacklist := rl.rule.foldl addRule .empty }

def isHostEvilThirdParty (b : Blocker) (host : Str) : Bool :=
  (b.domainBlacklist host).isSome

def shouldBlockThirdPartyRequest (b : Blocker) (s : AllSettings) (url : Gurl) : Bool :=
  if !s.filters.blacklistThirdParties then false
  else
    let evil := fun host => if b.isHostEvilThirdParty host then some true else none
    (SuffixWalk.search '.' evil (lowerHost url)).getD false

def shouldClearReferrer (s : AllSettings) : Bool := s.filters.clearReferrer

end Blocker

end Seaturtle
