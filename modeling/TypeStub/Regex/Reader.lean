import TypeStub.Regex.Width
import TypeStub.Text.CharacterName
import TypeStub.Text.Identifier
import TypeStub.Text.Integer
/-!
# Reading regular expressions

A pattern is cut into pieces, each a character or a backslash with the character behind it. The
reader walks over the pieces and keeps the groups that were opened and closed so far.
-/

namespace TypeStub.Regex

open TypeStub.Text

/-- A piece of a pattern. A backslash at the end of the pattern is `dangling`. -/
inductive Piece
  | plain (n : Nat)
  | escaped (n : Nat)
  | dangling
  deriving DecidableEq, Repr

def pieces : List Nat → List Piece
  | [] => []
  | [n] => if n == 92 then [.dangling] else [.plain n]
  | n :: m :: rest =>
    if n == 92 then .escaped m :: pieces rest else .plain n :: pieces (m :: rest)

def Piece.points : Piece → List Nat
  | .plain n => [n]
  | .escaped n => [92, n]
  | .dangling => [92]

/-- What the reader knows: the pieces that are left, the flags set for the whole, the number of
groups opened (the whole included), the names of groups, the widths of the closed ones, how many
groups were open when the outermost look behind began, and the groups that conditions name. -/
structure ReadState where
  pieces : List Piece
  flags : List Flag
  opened : Nat
  names : List (List Nat × Nat)
  closed : List (Nat × Width)
  behindFrom : Option Nat
  conditions : List Nat

abbrev Read := StateT ReadState (Except RegexError)

def refuse {α : Type} : Read α := throw .malformed

def peek : Read (Option Piece) := do
  return (← get).pieces.head?

/-- Goes on at the given pieces, which must not start with a dangling backslash. -/
def goTo (rest : List Piece) : Read Unit :=
  match rest with
  | .dangling :: _ => refuse
  | _ => modify fun s => { s with pieces := rest }

def take : Read (Option Piece) := do
  match (← get).pieces with
  | [] => return none
  | p :: rest =>
    goTo rest
    return some p

def accept (c : Char) : Read Bool := do
  if (← peek) == some (.plain c.toNat) then
    let _ ← take
    return true
  else return false

def expect (c : Char) : Read Unit := do
  if ← accept c then return () else refuse

/-- Takes at most `limit` characters that satisfy `p`. -/
def takeWhileUpTo (p : Char → Bool) : (limit : Nat) → Read (List Char)
  | 0 => return []
  | limit + 1 => do
    match ← peek with
    | some (.plain n) =>
      if n < 128 && p (Char.ofNat n) then
        let _ ← take
        let rest ← takeWhileUpTo p limit
        return Char.ofNat n :: rest
      else return []
    | _ => return []

def takeDigits : Read (List Char) := do
  let s ← get
  takeWhileUpTo isDigit s.pieces.length

def takeUntil (terminator : Char) : Read (List Nat) := do
  let ps := (← get).pieces
  let isEnd (p : Piece) : Bool := p == .plain terminator.toNat
  let text := ps.takeWhile fun p => !isEnd p
  match ps.dropWhile fun p => !isEnd p with
  | [] => refuse
  | _ :: rest =>
    if text.isEmpty then refuse
    goTo rest
    return text.flatMap Piece.points

def isName (ps : List Nat) : Bool :=
  match ofPoints ps with
  | some cs => isIdentifier cs
  | none => false
where
  ofPoints (ps : List Nat) : Option (List Char) :=
    if ps.all Nat.isValidChar then some (ps.map Char.ofNat) else none

def isClosed (g : Nat) : Read Bool := do
  return ((← get).closed.lookup g).isSome

/-- Inside a look behind, a group that is referred to must have been closed before it. -/
def checkBehind (g : Nat) : Read Unit := do
  match (← get).behindFrom with
  | none => return ()
  | some limit =>
    if !(← isClosed g) then refuse
    if g ≥ limit then refuse

def reference (g : Nat) : Read Part := do
  if !(← isClosed g) then refuse
  checkBehind g
  return .backref g

/-! ## Escapes -/

/-- A number of exactly `count` hexadecimal digits. -/
def hexEscape (count : Nat) : Read Nat := do
  let digits ← takeWhileUpTo isHexDigit count
  if digits.length == count then return ofDigits 16 digits else refuse

def isOctalDigit (c : Char) : Bool :=
  '0' ≤ c && c ≤ '7'

def isAsciiLetter (c : Char) : Bool :=
  ('a' ≤ c && c ≤ 'z') || ('A' ≤ c && c ≤ 'Z')

def controlEscape? : Char → Option Nat
  | 'a' => some 7
  | 'f' => some 12
  | 'n' => some 10
  | 'r' => some 13
  | 't' => some 9
  | 'v' => some 11
  | '\\' => some 92
  | _ => none

def classEscape? : Char → Option SetItem
  | 'd' => some (.named .digit false)
  | 'D' => some (.named .digit true)
  | 's' => some (.named .space false)
  | 'S' => some (.named .space true)
  | 'w' => some (.named .word false)
  | 'W' => some (.named .word true)
  | _ => none

def anchorEscape? : Char → Option Anchor
  | 'A' => some .textStart
  | 'Z' => some .textEnd
  | 'b' => some .wordEdge
  | 'B' => some .noWordEdge
  | _ => none

def pointEscape (n : Nat) : Read Nat := do
  if n ≥ 128 then return n
  match Char.ofNat n with
  | 'x' => hexEscape 2
  | 'u' => hexEscape 4
  | 'U' =>
    let v ← hexEscape 8
    if v ≤ 0x10FFFF then return v else refuse
  | 'N' =>
    expect '\x7b'
    let name ← takeUntil '\x7d'
    if name.all Nat.isValidChar then
      match characterNamed? (name.map Char.ofNat) with
      | some c => return c.toNat
      | none => refuse
    else refuse
  | c => if isAsciiLetter c || isDigit c then refuse else return n

def setEscape (n : Nat) : Read SetItem := do
  let c := Char.ofNat n
  if n == 98 then return .point 8
  match controlEscape? c, classEscape? c with
  | some m, _ => return .point m
  | none, some item => return item
  | none, none =>
    if isOctalDigit c then
      let more ← takeWhileUpTo isOctalDigit 2
      let v := ofDigits 8 (c :: more)
      if v > 255 then refuse else return .point v
    else return .point (← pointEscape n)

def escape (n : Nat) : Read Part := do
  let c := Char.ofNat n
  match anchorEscape? c, classEscape? c, controlEscape? c with
  | some a, _, _ => return .anchor a
  | _, some item, _ => return .set [item] false
  | _, _, some m => return .point m false
  | _, _, _ =>
    if c == '0' then
      let more ← takeWhileUpTo isOctalDigit 2
      return .point (ofDigits 8 more) false
    else if isDigit c then
      let second ← takeWhileUpTo isDigit 1
      let third ←
        if isOctalDigit c && !second.isEmpty && second.all isOctalDigit then
          takeWhileUpTo isOctalDigit 1
        else pure []
      if !third.isEmpty then
        let v := ofDigits 8 (c :: second ++ third)
        if v > 255 then refuse else return .point v false
      else
        reference (ofDigits 10 (c :: second))
    else return .point (← pointEscape n) false

/-! ## Character sets -/

def setPiece : Piece → Read SetItem
  | .plain n => return .point n
  | .escaped n => setEscape n
  | .dangling => refuse

def setItems : (fuel : Nat) → List SetItem → Read (List SetItem)
  | 0, _ => refuse
  | fuel + 1, items => do
    match ← take with
    | none => refuse
    | some p =>
      if p == .plain 93 && !items.isEmpty then return items.reverse
      let item ← setPiece p
      if ← accept '-' then
        match ← take with
        | none => refuse
        | some q =>
          if q == .plain 93 then return (.point 45 :: item :: items).reverse
          match item, ← setPiece q with
          | .point first, .point last =>
            if last < first then refuse else setItems fuel (.range first last :: items)
          | _, _ => refuse
      else setItems fuel (item :: items)

def charSet : Read Part := do
  let negated ← accept '^'
  let items ← setItems ((← get).pieces.length + 1) []
  match items.eraseDups with
  | [.point n] => return .point n negated
  | distinct => return .set distinct negated

/-! ## Repetition -/

def countOf (digits : List Char) : Read Nat := do
  if digits.length > maxDigits then throw .countTooLong
  let count := ofDigits 10 digits
  if count ≥ countLimit then throw .countTooLarge
  return count

def repetition? (sign : Char) : Read (Option (Nat × Option Nat)) := do
  match sign with
  | '?' => return some (0, some 1)
  | '*' => return some (0, none)
  | '+' => return some (1, none)
  | _ =>
    let start := (← get).pieces
    if (← peek) == some (.plain 125) then return none
    let low ← takeDigits
    let comma ← accept ','
    let high ← if comma then takeDigits else pure low
    if ← accept '\x7d' then
      let least ← countOf low
      if high.isEmpty then return some (least, none)
      let most ← countOf high
      if most < least then refuse
      return some (least, some most)
    else
      goTo start
      return none

def repeatLast (bounds : Nat × Option Nat) (parts : List Part) : Read (List Part) := do
  match parts with
  | [] | .anchor _ :: _ | .repeat .. :: _ => refuse
  | last :: before =>
    let body := match last with
      | .group none [] [] inner => inner
      | p => [p]
    let eagerness ←
      if ← accept '?' then pure Eagerness.lazy
      else if ← accept '+' then pure Eagerness.possessive
      else pure Eagerness.greedy
    return .repeat eagerness bounds.1 bounds.2 body :: before

/-! ## Groups -/

def flagOf? : Char → Option Flag
  | 'i' => some .ignoreCase
  | 'm' => some .multiline
  | 's' => some .dotAll
  | 'x' => some .verbose
  | 'a' => some .ascii
  | 't' => some .template
  | 'u' => some .unicode
  | _ => none

def Piece.flag? : Piece → Option Flag
  | .plain n => if n < 128 then flagOf? (Char.ofNat n) else none
  | _ => none

def addedFlags : (fuel : Nat) → Piece → List Flag → Read (List Flag × Piece)
  | 0, _, _ => refuse
  | fuel + 1, p, flags => do
    match p.flag? with
    | none => refuse
    | some f =>
      let all := if flags.contains f then flags else flags ++ [f]
      if f.isAlphabet && all.any (fun g => g.isAlphabet && g != f) then refuse
      match ← take with
      | none => refuse
      | some q =>
        if q == .plain 41 || q == .plain 45 || q == .plain 58 then return (all, q)
        else addedFlags fuel q all

def droppedFlags : (fuel : Nat) → List Flag → Read (List Flag)
  | 0, _ => refuse
  | fuel + 1, flags => do
    match ← take with
    | none => refuse
    | some p =>
      if p == .plain 58 && !flags.isEmpty then return flags
      match p.flag? with
      | none => refuse
      | some f => if f.isAlphabet then refuse else droppedFlags fuel (flags ++ [f])

/-- What an opening parenthesis begins. -/
inductive Opening
  | capture (name : Option (List Nat))
  | scope (added dropped : List Flag)
  | atomic
  | look (behind negated : Bool)
  | condition (group : Nat)
  /-- A part that has no body of its own. -/
  | done (part : Part)
  | comment
  /-- Flags for the whole pattern, which are kept already. -/
  | flags

/-- The flags behind `(?`: for the whole pattern, or for a group. -/
def flagsOpening (first : Piece) : Read Opening := do
  let fuel := (← get).pieces.length + 1
  let (added, stop) ←
    if first == .plain 45 then pure ([], first) else addedFlags fuel first []
  if stop == .plain 41 then
    modify fun s => { s with flags := s.flags ++ added }
    return .flags
  if added.contains .template then refuse
  let dropped ← if stop == .plain 45 then droppedFlags fuel [] else pure []
  if dropped.contains .template || added.any dropped.contains then refuse
  return .scope added dropped

def conditionGroup : Read Nat := do
  let name ← takeUntil ')'
  let g ←
    if isName name then
      match (← get).names.lookup name with
      | some g => pure g
      | none => refuse
    else if name.all Nat.isValidChar then
      match readInteger (name.map Char.ofNat) with
      | .ok v =>
        if v ≤ 0 || v ≥ 0x40000000 then refuse
        modify fun s => { s with conditions := v.toNat :: s.conditions }
        pure v.toNat
      | .error _ => refuse
    else refuse
  checkBehind g
  return g

def opening : Read Opening := do
  if !(← accept '?') then return .capture none
  match ← take with
  | some (.plain 80) =>
    if ← accept '<' then
      let name ← takeUntil '>'
      if isName name then return .capture (some name) else refuse
    else if ← accept '=' then
      let name ← takeUntil ')'
      if !isName name then refuse
      match (← get).names.lookup name with
      | some g => return .done (← reference g)
      | none => refuse
    else refuse
  | some (.plain 58) => return .scope [] []
  | some (.plain 35) =>
    match (← get).pieces.dropWhile (· != .plain 41) with
    | [] => refuse
    | _ :: rest =>
      goTo rest
      return .comment
  | some (.plain 61) => return .look false false
  | some (.plain 33) => return .look false true
  | some (.plain 60) =>
    match ← take with
    | some (.plain 61) => return .look true false
    | some (.plain 33) => return .look true true
    | _ => refuse
  | some (.plain 40) => return .condition (← conditionGroup)
  | some (.plain 62) => return .atomic
  | some p => if p == .plain 45 || p.flag?.isSome then flagsOpening p else refuse
  | none => refuse

def openGroup (name : Option (List Nat)) : Read Nat := do
  let s ← get
  match name with
  | none => set { s with opened := s.opened + 1 }
  | some n =>
    if (s.names.lookup n).isSome then refuse
    set { s with opened := s.opened + 1, names := (n, s.opened) :: s.names }
  return s.opened

/-! ## Sequences and branches -/

def isLayout (p : Piece) : Bool :=
  [.plain 32, .plain 9, .plain 10, .plain 13, .plain 11, .plain 12].contains p

/-- The parts of a sequence in order, with bare groups dissolved; they come in reverse order. -/
def dissolve (parts : List Part) : List Part :=
  parts.reverse.flatMap fun p =>
    match p with
    | .group none [] [] inner => inner
    | _ => [p]

def skipLine : Read Unit := do
  match (← get).pieces.dropWhile fun p => p != .plain 10 && p != .dangling with
  | .plain 10 :: rest => goTo rest
  | rest => goTo rest

mutual

/-- The branches up to a closing parenthesis or the end. At the top of a pattern, a flag for the
whole may stand in the first branch and holds for the others. -/
def branches (top : Bool) :
    (fuel : Nat) → (verbose first : Bool) → Read (List (List Part))
  | 0, _, _ => refuse
  | fuel + 1, verbose, first => do
    let branch ← sequence (top && first) fuel verbose []
    if ← accept '|' then
      let s ← get
      let more ← branches top fuel (if top then s.flags.contains .verbose else verbose) false
      return branch :: more
    else return [branch]

/-- The parts up to a bar, a closing parenthesis or the end. `lead` says whether flags for the
whole may stand at the start. -/
def sequence (lead : Bool) : (fuel : Nat) → (verbose : Bool) → List Part → Read (List Part)
  | 0, _, _ => refuse
  | fuel + 1, verbose, parts => do
    match ← peek with
    | none => return dissolve parts
    | some (.plain 124) => return dissolve parts
    | some (.plain 41) => return dissolve parts
    | some p =>
      let _ ← take
      if verbose && isLayout p then sequence lead fuel verbose parts
      else if verbose && p == .plain 35 then
        skipLine
        sequence lead fuel verbose parts
      else
        match p with
        | .dangling => refuse
        | .escaped n => sequence lead fuel verbose ((← escape n) :: parts)
        | .plain n =>
          match Char.ofNat n with
          | '[' => sequence lead fuel verbose ((← charSet) :: parts)
          | '.' => sequence lead fuel verbose (.any :: parts)
          | '^' => sequence lead fuel verbose (.anchor .lineStart :: parts)
          | '$' => sequence lead fuel verbose (.anchor .lineEnd :: parts)
          | '(' =>
            match ← opening with
            | .done part => sequence lead fuel verbose (part :: parts)
            | .comment => sequence lead fuel verbose parts
            | .flags =>
              if !lead || !parts.isEmpty then refuse
              let flags := (← get).flags
              sequence lead fuel (flags.contains .verbose) parts
            | o =>
              let part ← groupBody fuel verbose o
              sequence lead fuel verbose (part :: parts)
          | '?' | '*' | '+' | '\x7b' =>
            match ← repetition? (Char.ofNat n) with
            | none => sequence lead fuel verbose (.point n false :: parts)
            | some bounds => sequence lead fuel verbose (← repeatLast bounds parts)
          | _ => sequence lead fuel verbose (.point n false :: parts)

def groupBody : (fuel : Nat) → (verbose : Bool) → Opening → Read Part
  | 0, _, _ => refuse
  | fuel + 1, verbose, o => do
    match o with
    | .capture name =>
      let g ← openGroup name
      let body ← choice fuel verbose
      modify fun s => { s with closed := (g, widthOf s.closed body) :: s.closed }
      return .group (some g) [] [] body
    | .scope added dropped =>
      let inner := (verbose || added.contains .verbose) && !dropped.contains .verbose
      return .group none added dropped (← choice fuel inner)
    | .atomic => return .atomic (← choice fuel verbose)
    | .look false negated => return .look none negated (← choice fuel verbose)
    | .look true negated =>
      let outer := (← get).behindFrom
      modify fun s => { s with behindFrom := some (outer.getD s.opened) }
      let body ← choice fuel verbose
      modify fun s => { s with behindFrom := outer }
      return .look (some (widthOf (← get).closed body)) negated body
    | .condition g =>
      let yes ← sequence false fuel verbose []
      let no ← if ← accept '|' then sequence false fuel verbose [] else pure []
      expect ')'
      return .condition g yes no
    | .done _ | .comment | .flags => refuse

/-- The branches of a group as one sequence, and the closing parenthesis. -/
def choice : (fuel : Nat) → (verbose : Bool) → Read (List Part)
  | 0, _ => refuse
  | fuel + 1, verbose => do
    let all ← branches false fuel verbose false
    expect ')'
    match all with
    | [only] => return only
    | _ => return [.either all]

end

end TypeStub.Regex
