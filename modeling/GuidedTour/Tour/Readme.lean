import GuidedTour.Text.Lower

namespace GuidedTour.Readme

/-!
# Cleaning a README

`clean` keeps what says something about the project. It drops the sections below a heading that
speaks of sponsors, up to the next heading, badges, and lines that ask for support; runs of blank
lines become one blank line, and the result is cut to a greatest length.
-/

/-- The greatest length of a cleaned README. -/
def maxChars : Nat := 4000

/-- What the address of a badge contains. -/
def badgeHosts : List String :=
  ["shields.io", "badge", "travis-ci", "circleci", "codecov", "coveralls", "appveyor",
    "badgen.net", "/workflows/"]

/-- What a heading of a sponsor section contains. -/
def sponsorHeadings : List String :=
  ["sponsor", "backer", "thank", "donat", "funding", "support us", "support the project",
    "acknowledg"]

/-- What a line that asks for support contains. -/
def promoMarkers : List String :=
  ["buy me a coffee", "buymeacoffee.com", "ko-fi.com", "patreon.com", "opencollective.com",
    "github.com/sponsors", "liberapay.com", "star this repo", "give us a star", "give it a star",
    "follow us on"]

/-- Whether one of the words occurs in a text. -/
def hasAny (words : List String) (s : List Char) : Bool :=
  words.any fun word => Text.contains word.toList s

/-- The text of a heading: one to six number signs, then nothing or a space. -/
def heading? (line : List Char) : Option (List Char) :=
  let s := Text.trimStart line
  let level := (s.takeWhile (· == '#')).length
  let rest := s.dropWhile (· == '#')
  if 1 ≤ level && level ≤ 6 && (rest.isEmpty || rest.head? == some ' ') then some (Text.trim rest)
  else none

/-- Whether a line begins with one of the words. -/
def startsWith (word : String) (s : List Char) : Bool := word.toList.isPrefixOf s

/-- Whether a line is a badge: an image behind a link, or an image from a host of badges. -/
def isBadge (line : List Char) : Bool :=
  let s := Text.trim line
  if s.isEmpty then false
  else if startsWith "[![" s then true
  else
    let s := Text.lower s
    let isImage := startsWith "![" s || startsWith "<img" s ||
      (startsWith "<a " s && Text.contains "<img".toList s)
    isImage && hasAny badgeHosts s

/-- Whether a heading opens a sponsor section. -/
def isSponsorHeading (heading : List Char) : Bool := hasAny sponsorHeadings (Text.lower heading)

/-- Whether a line asks for support. -/
def isPromotional (line : List Char) : Bool := hasAny promoMarkers (Text.lower line)

/-- The lines outside sponsor sections; `inside` says whether the first line stands in one. -/
def outsideSponsors (inside : Bool) : List (List Char) → List (List Char)
  | [] => []
  | line :: rest =>
    let inside := match heading? line with
      | some heading => isSponsorHeading heading
      | none => inside
    if inside then outsideSponsors inside rest else line :: outsideSponsors inside rest

/-- The lines, blank ones only after one that is not; `afterBlank` says whether the line before the
first one was blank. -/
def collapseBlank (afterBlank : Bool) : List (List Char) → List (List Char)
  | [] => []
  | line :: rest =>
    let blank := Text.allBlank line
    if blank && afterBlank then collapseBlank true rest
    else Text.trimEnd line :: collapseBlank blank rest

/-- The lines of a README that are kept. -/
def keptLines (s : List Char) : List (List Char) :=
  (outsideSponsors false (Text.lines s)).filter fun line => !isBadge line && !isPromotional line

/-- What is kept of a README, before it is cut. -/
def keptText (s : List Char) : List Char :=
  Text.trim (Text.joinWith ['\n'] (collapseBlank true (keptLines s)))

/-- A README without what says nothing about the project. -/
def clean (s : List Char) : List Char :=
  let kept := keptText s
  if kept.length ≤ maxChars then kept else Text.trimEnd (Text.truncate maxChars kept)

end GuidedTour.Readme
