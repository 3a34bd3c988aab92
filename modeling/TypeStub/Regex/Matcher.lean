import TypeStub.Regex.Tree
import TypeStub.Text.Case
import TypeStub.Text.Decimal
import TypeStub.Text.Space
import TypeStub.Text.Word
/-!
# Matching by search

A part is matched at a place of a text and hands what it found to the rest of the search; if the
rest fails, the part's next way to match is tried. The order of the ways decides what the groups
have captured, and a part that is atomic offers its first way only.
-/

namespace TypeStub.Regex

open TypeStub.Text

/-- A place in a text: what is behind it, nearest first, and what is ahead. -/
structure Place where
  behind : List Nat
  ahead : List Nat

/-- How far a search has come: the place, and the texts of the groups, latest first. -/
structure Progress where
  place : Place
  captures : List (Nat × List Nat)

abbrev Rest := Progress → Option Progress

/-! ## Characters -/

def CharClass.holds (ascii : Bool) : CharClass → Nat → Bool
  | .digit, n => if ascii then 48 ≤ n && n ≤ 57 else (digitValue? n).isSome
  | .space, n => if ascii then (9 ≤ n && n ≤ 13) || n == 32 else isSpace n
  | .word, n => if ascii then n < 128 && isWord n else isWord n

def fold (flags : List Flag) (n : Nat) : Nat :=
  if flags.contains .ascii then lowerAscii n else lower n

/-- The lower-case letters that count as `n`, a lower-case letter. -/
def kin (flags : List Flag) (n : Nat) : List Nat :=
  if flags.contains .ascii then [n] else n :: lowerKin n

def samePoint (flags : List Flag) (expected n : Nat) : Bool :=
  if flags.contains .ignoreCase then (kin flags (fold flags expected)).contains (fold flags n)
  else expected == n

/-- Whether some form of the lower-case letter `n` lies in a range. -/
def rangeHolds (flags : List Flag) (first last n : Nat) : Bool :=
  let within (m : Nat) : Bool := first ≤ m && m ≤ last
  if flags.contains .ascii then
    within n && lowerAscii n == n || (97 ≤ n && n ≤ 122 && within (n - 32))
  else
    (kin flags n).any (fun m => (withLower m).any fun u => within u && u < 0x10000) ||
      (last ≥ 0x10000 && (within n || within (upper n)))

/-- Whether a member of a set holds a character. Without regard to case, the character is in
lower case, and members beyond the basic plane are compared as they are. -/
def SetItem.holds (flags : List Flag) (n : Nat) : SetItem → Bool
  | .point m =>
    if flags.contains .ignoreCase && m < 0x10000 then (kin flags (fold flags m)).contains n
    else m == n
  | .range first last =>
    if flags.contains .ignoreCase then rangeHolds flags first last n
    else first ≤ n && n ≤ last
  | .named cls negated => cls.holds (flags.contains .ascii) n != negated

def setHolds (flags : List Flag) (items : List SetItem) (negated : Bool) (n : Nat) : Bool :=
  let c := if flags.contains .ignoreCase then fold flags n else n
  (items.any (·.holds flags c)) != negated

/-- Takes one character that satisfies `p`. -/
def one (p : Nat → Bool) (k : Rest) : Rest := fun s =>
  match s.place.ahead with
  | c :: rest =>
    if p c then k { s with place := { behind := c :: s.place.behind, ahead := rest } } else none
  | [] => none

/-! ## Places -/

def atWordEdge (ascii : Bool) (p : Place) : Bool :=
  let isWordChar (c : Option Nat) : Bool := match c with
    | some n => CharClass.word.holds ascii n
    | none => false
  isWordChar p.behind.head? != isWordChar p.ahead.head?

def Place.ofEmptyText (p : Place) : Bool :=
  p.behind.isEmpty && p.ahead.isEmpty

/-- Whether an anchor holds at a place. In an empty text there is neither an edge of a word nor a
place without one. -/
def Anchor.holds (flags : List Flag) (p : Place) : Anchor → Bool
  | .textStart => p.behind.isEmpty
  | .textEnd => p.ahead.isEmpty
  | .lineStart =>
    p.behind.isEmpty || (flags.contains .multiline && p.behind.head? == some 10)
  | .lineEnd =>
    p.ahead.isEmpty || p.ahead == [10] ||
      (flags.contains .multiline && p.ahead.head? == some 10)
  | .wordEdge => !p.ofEmptyText && atWordEdge (flags.contains .ascii) p
  | .noWordEdge => !p.ofEmptyText && !atWordEdge (flags.contains .ascii) p

/-- The place `n` characters back. -/
def Place.back? : Nat → Place → Option Place
  | 0, p => some p
  | n + 1, p =>
    match p.behind with
    | [] => none
    | c :: rest => Place.back? n { behind := rest, ahead := c :: p.ahead }

/-- Goes over a text that is expected ahead. -/
def follow (same : Nat → Nat → Bool) : List Nat → Place → Option Place
  | [], p => some p
  | e :: expected, p =>
    match p.ahead with
    | c :: rest =>
      if same e c then follow same expected { behind := c :: p.behind, ahead := rest } else none
    | [] => none

/-! ## Repetition -/

/-- Whether one more repetition is allowed after `count`. -/
def allows (most : Option Nat) (count : Nat) : Bool :=
  match most with
  | none => true
  | some m => count < m

/-- Repeats a body, as often as possible first. Beyond the least number, a repetition starts only
where the last one did not; `last` is the length of what was ahead there. -/
def greedily (body : Rest → Rest) (least : Nat) (most : Option Nat) (k : Rest) :
    (fuel : Nat) → (count : Nat) → (last : Option Nat) → Rest
  | 0, _, _ => fun _ => none
  | fuel + 1, count, last => fun s =>
    let here := s.place.ahead.length
    if count < least then body (greedily body least most k fuel (count + 1) last) s
    else if allows most count && last != some here then
      match body (greedily body least most k fuel (count + 1) (some here)) s with
      | some found => some found
      | none => k s
    else k s

def lazily (body : Rest → Rest) (least : Nat) (most : Option Nat) (k : Rest) :
    (fuel : Nat) → (count : Nat) → (last : Option Nat) → Rest
  | 0, _, _ => fun _ => none
  | fuel + 1, count, last => fun s =>
    let here := s.place.ahead.length
    if count < least then body (lazily body least most k fuel (count + 1) last) s
    else
      match k s with
      | some found => some found
      | none =>
        if allows most count && last != some here then
          body (lazily body least most k fuel (count + 1) (some here)) s
        else none

/-- Repeats a body as often as possible, each time in its first way, and never goes back. -/
def possessively (body : Rest → Rest) (least : Nat) (most : Option Nat) (k : Rest) :
    (fuel : Nat) → (count : Nat) → (last : Option Nat) → Rest
  | 0, _, _ => fun _ => none
  | fuel + 1, count, last => fun s =>
    let here := s.place.ahead.length
    if count < least then
      match body some s with
      | some s' => possessively body least most k fuel (count + 1) last s'
      | none => none
    else if allows most count && last != some here then
      match body some s with
      | some s' => possessively body least most k fuel (count + 1) (some here) s'
      | none => k s
    else k s

/-- Repeats a body. Each repetition beyond the least number, except the last, takes a character;
this bounds their number. -/
def repeated (eagerness : Eagerness) (least : Nat) (most : Option Nat) (body : Rest → Rest)
    (k : Rest) : Rest := fun s =>
  let fuel := least + s.place.ahead.length + 2
  match eagerness with
  | .greedy => greedily body least most k fuel 0 none s
  | .lazy => lazily body least most k fuel 0 none s
  | .possessive => possessively body least most k fuel 0 none s

/-! ## Parts -/

def flagsIn (flags added dropped : List Flag) : List Flag :=
  let kept := if added.any (·.isAlphabet) then flags.filter (!·.isAlphabet) else flags
  (kept ++ added).filter (!dropped.contains ·)

mutual

def Part.search (flags : List Flag) : Part → Rest → Rest
  | .point n negated, k => one (fun c => samePoint flags n c != negated) k
  | .any, k => one (fun c => flags.contains .dotAll || c != 10) k
  | .set items negated, k => one (setHolds flags items negated) k
  | .anchor a, k => fun s => if a.holds flags s.place then k s else none
  | .backref g, k => fun s =>
    match s.captures.lookup g with
    | none => none
    | some text =>
      let same (e c : Nat) : Bool :=
        if flags.contains .ignoreCase then fold flags e == fold flags c else e == c
      match follow same text s.place with
      | some place => k { s with place }
      | none => none
  | .repeat eagerness least most body, k =>
    repeated eagerness least most (searchAll flags body) k
  | .either branches, k => searchEither flags branches k
  | .group index added dropped body, k => fun s =>
    match index with
    | none => searchAll (flagsIn flags added dropped) body k s
    | some g =>
      searchAll (flagsIn flags added dropped) body (fun s' =>
        let taken := s.place.ahead.take (s.place.ahead.length - s'.place.ahead.length)
        k { s' with captures := (g, taken) :: s'.captures }) s
  | .atomic body, k => fun s =>
    match searchAll flags body some s with
    | some s' => k s'
    | none => none
  | .look behind negated body, k => fun s =>
    let start := match behind with
      | none => some s.place
      | some w => s.place.back? w.least
    let found := match start with
      | none => none
      | some place => searchAll flags body some { s with place }
    match found, negated with
    | some s', false => k { s with captures := s'.captures }
    | none, true => k s
    | _, _ => none
  | .condition g yes no, k => fun s =>
    if (s.captures.lookup g).isSome then searchAll flags yes k s else searchAll flags no k s

def searchAll (flags : List Flag) : List Part → Rest → Rest
  | [], k => k
  | p :: rest, k => p.search flags (searchAll flags rest k)

def searchEither (flags : List Flag) : List (List Part) → Rest → Rest
  | [], _ => fun _ => none
  | b :: rest, k => fun s =>
    match searchAll flags b k s with
    | some found => some found
    | none => searchEither flags rest k s

end

end TypeStub.Regex
