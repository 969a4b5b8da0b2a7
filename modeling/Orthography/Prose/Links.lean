/-
Links in a text, and the text without them.

A link is one of three things. An opening (`scheme://`, `mailto:`, `www.`) with what follows up to
white space, an angle bracket or a quote, less closing punctuation. An e-mail address. A bare host
under one of seven well-known top-level domains, perhaps with a path.

Links are looked for from the left, at each place in this order, and the text behind a link is
searched on. Each kind has one length at a place: every run it takes is the longest one, since the
character behind the run cannot stand where the run would have been cut shorter.
-/
import Orthography.Text.Basic
import Orthography.Unicode.Blank
import Orthography.Unicode.Word

set_option autoImplicit false

namespace Orthography.Prose

open Unicode

/-! ## Character classes -/

/-- Does the character end a link wherever it stands? -/
def stopsLink (c : Char) : Bool := isBlank c || "<>\"'`".toList.contains c

/-- Can the character not be a link's last one? Such a character closes the sentence around it. -/
def closesSentence (c : Char) : Bool := ".,;:!?)]".toList.contains c

/-- Letters of a scheme behind the first. -/
def isSchemeChar (c : Char) : Bool := c.isAlphanum || c = '+' || c = '.' || c = '-'

def isMailboxChar (c : Char) : Bool := isWord c || c = '.' || c = '+' || c = '-'

def isMailHostChar (c : Char) : Bool := isWord c || c = '-'

def isHostChar (c : Char) : Bool := c.isAlphanum || c = '-'

/-- Is there a word boundary between two neighbours? The ends of the text count as no word. -/
def atBoundary (before after : Option Char) : Bool := before.any isWord != after.any isWord

/-! ## The three kinds -/

/-- The length of the longest beginning of the text that holds no stop and ends in a character
that can end a link; zero if there is none. -/
def tailLength (t : Text) : Nat :=
  ((t.takeWhile (!stopsLink ·)).reverse.dropWhile closesSentence).length

/-- The length of `scheme://` at the beginning. -/
def schemeLength? (t : Text) : Option Nat :=
  match t with
  | [] => none
  | c :: _ =>
    let run := t.takeWhile isSchemeChar
    if c.isAlpha && "://".toList.isPrefixOf (t.drop run.length) then some (run.length + 3) else none

/-- The length of a fixed opening at the beginning. -/
def openingLength? (opening t : Text) : Option Nat :=
  if opening.isPrefixOf t then some opening.length else none

/-- An opening and a tail behind it. -/
def withTail? (opening : Option Nat) (t : Text) : Option Nat := do
  let n ← opening
  let tail := tailLength (t.drop n)
  if tail = 0 then none else some (n + tail)

/-- The length of the labels `.label.label…` at the beginning; zero if there is none. -/
def mailLabelsLength (t : Text) : Nat :=
  match t with
  | '.' :: rest =>
    let label := rest.takeWhile isMailHostChar
    if label.isEmpty then 0 else 1 + label.length + mailLabelsLength (rest.drop label.length)
  | _ => 0
termination_by t.length
decreasing_by simp only [List.length_drop, List.length_cons]; omega

def addressLength? (t : Text) : Option Nat :=
  let mailbox := t.takeWhile isMailboxChar
  match t.drop mailbox.length with
  | '@' :: rest =>
    let label := rest.takeWhile isMailHostChar
    let more := mailLabelsLength (rest.drop label.length)
    if mailbox.isEmpty || label.isEmpty || more = 0 then none
    else some (mailbox.length + 1 + label.length + more)
  | _ => none

/-- The lengths of `label.`, `label.label.` and so on at the beginning, the longest first. -/
def hostLengths (t : Text) : List Nat :=
  let label := t.takeWhile isHostChar
  if label.isEmpty then []
  else match _h : t.drop label.length with
    | '.' :: rest => (hostLengths rest).map (label.length + 1 + ·) ++ [label.length + 1]
    | _ => []
termination_by t.length
decreasing_by
  have := congrArg List.length _h
  simp at this
  omega

/-- The top-level domains under which a bare host is a link. -/
def topLevelDomains : List Text :=
  ["com", "org", "net", "io", "dev", "edu", "gov"].map String.toList

/-- The length of a top-level domain at the beginning, not followed by a word character. -/
def topLevelLength? (t : Text) : Option Nat := do
  let domain ← topLevelDomains.find? fun domain =>
    domain.isPrefixOf t && atBoundary domain.getLast? (t.drop domain.length).head?
  some domain.length

def pathLength (t : Text) : Nat :=
  match t with
  | '/' :: rest => if tailLength rest = 0 then 0 else 1 + tailLength rest
  | _ => 0

/-- The length of a bare host at the beginning. -/
def hostLength? (before : Option Char) (t : Text) : Option Nat :=
  if atBoundary before t.head? then
    (hostLengths t).findSome? fun n => do
      let domain ← topLevelLength? (t.drop n)
      some (n + domain + pathLength (t.drop (n + domain)))
  else none

/-- The length of the link that begins here, `before` being the character before this place. -/
def linkLength? (before : Option Char) (t : Text) : Option Nat :=
  withTail? (schemeLength? t) t
    <|> withTail? (openingLength? "mailto:".toList t) t
    <|> withTail? (openingLength? "www.".toList t) t
    <|> addressLength? t
    <|> hostLength? before t

/-! ## Removal -/

/-- The text without its links, where `before` is the character before it and the first `linked`
characters still belong to a link. -/
def stripLinksFrom (before : Option Char) (linked : Nat) : Text → Text
  | [] => []
  | c :: rest =>
    match linked with
    | linked + 1 => stripLinksFrom (some c) linked rest
    | 0 =>
      match linkLength? before (c :: rest) with
      | some (n + 1) => stripLinksFrom (some c) n rest
      | _ => c :: stripLinksFrom (some c) 0 rest

def stripLinks (t : Text) : Text := stripLinksFrom none 0 t

end Orthography.Prose
