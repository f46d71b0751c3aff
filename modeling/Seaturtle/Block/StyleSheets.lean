import Seaturtle.Lib.Joins
import Seaturtle.Block.Blocker

/-! The blocker of a render process: the rules turned into style sheets, and the style
sheets put into a document. `blink::WebString` is a parameter with its `fromUTF8`. -/
namespace Seaturtle

def kDisplayNone : Str := " {display:none !important;}".toList
def kMaxSelectorsPerStylesheet : Nat := 4096

/-- The members of `Blocker` that the render process uses. -/
structure RenderBlocker (WebString : Type) where
  globalStylesheets : List WebString := []
  domainStylesheets : HashMap Str Str := .empty

/-- The document of a `blink::WebFrame`. -/
structure WebDocument (WebString : Type) where
  url : Gurl
  styleSheets : List WebString := []

variable {WebString : Type} (fromUTF8 : Str → WebString)

def WebDocument.insertStyleSheet (doc : WebDocument WebString) (sheet : WebString) :
    WebDocument WebString :=
  { doc with styleSheets := doc.styleSheets ++ [sheet] }

/-- What `UpdateRulesForRenderProcess` keeps of the global selectors in its loop. -/
structure GlobalSheets (WebString : Type) where
  globalStylesheets : List WebString := []
  /-- An `int`, of rules that `rule_size()` counts with an `int`. -/
  numGlobalSelectors : Nat := 0
  stylesheet : Str := []

namespace RenderBlocker

def addGlobalSelector (g : GlobalSheets WebString) (selector : Str) : GlobalSheets WebString :=
  let stylesheet := Joins.add [','] g.stylesheet selector
  let numGlobalSelectors := g.numGlobalSelectors + 1
  if numGlobalSelectors % kMaxSelectorsPerStylesheet = 0 then
    { globalStylesheets := g.globalStylesheets ++ [fromUTF8 (stylesheet ++ kDisplayNone)]
      numGlobalSelectors, stylesheet := [] }
  else { g with numGlobalSelectors, stylesheet }

/-- A domain already in the map gets the selector appended. -/
def addDomainSelector (sheets : HashMap Str Str) (domain selector : Str) : HashMap Str Str :=
  match sheets domain with
  | none => sheets.set domain selector
  | some current => sheets.set domain (current ++ [','] ++ selector)

/-- One round of the loop over the rules. -/
def addRule (s : GlobalSheets WebString × HashMap Str Str) (rule : Blocking.Rule) :
    GlobalSheets WebString × HashMap Str Str :=
  if rule.selector.isEmpty then s
  else if rule.domain.isEmpty then (addGlobalSelector fromUTF8 s.1 rule.selector, s.2)
  else (s.1, addDomainSelector s.2 rule.domain rule.selector)

/-- What is left after the last full style sheet. -/
def flush (g : GlobalSheets WebString) : List WebString :=
  if g.stylesheet.isEmpty then g.globalStylesheets
  else g.globalStylesheets ++ [fromUTF8 (g.stylesheet ++ kDisplayNone)]

def updateRulesForRenderProcess (_ : RenderBlocker WebString) (rl : Blocking.RuleList) :
    RenderBlocker WebString :=
  let s := rl.rule.foldl (addRule fromUTF8) ({}, .empty)
  { globalStylesheets := flush fromUTF8 s.1, domainStylesheets := s.2 }

/-- One round of the loop over the suffixes of the host. -/
def appendDomain (b : RenderBlocker WebString) (stylesheet host : Str) : Str :=
  match b.domainStylesheets host with
  | none => stylesheet
  | some selectors => Joins.add [','] stylesheet selectors

def injectStyleSheets (b : RenderBlocker WebString) (doc : WebDocument WebString) :
    WebDocument WebString :=
  let doc := b.globalStylesheets.foldl WebDocument.insertStyleSheet doc
  let stylesheet := SuffixWalk.fold '.' b.appendDomain [] (lowerHost doc.url)
  if stylesheet.isEmpty then doc else doc.insertStyleSheet (fromUTF8 (stylesheet ++ kDisplayNone))

end RenderBlocker

end Seaturtle
