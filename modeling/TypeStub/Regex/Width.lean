import TypeStub.Regex.Tree
/-!
# The width of a part

A look behind needs a body of one fixed width. Widths are bounded: beyond `widthLimit` they are
not told apart.
-/

namespace TypeStub.Regex

def widthLimit : Nat := Nat.pow 2 64

/-- The number that stands for repetition without end when widths are counted. -/
def countLimit : Nat := Nat.pow 2 32 - 1

def Width.append (a b : Width) : Width :=
  { least := min widthLimit (a.least + b.least), most := min widthLimit (a.most + b.most) }

def Width.choice (a b : Width) : Width :=
  { least := min a.least b.least, most := max a.most b.most }

def Width.repeated (w : Width) (least : Nat) (most : Option Nat) : Width :=
  { least := min widthLimit (w.least * least)
    most := match most with
      | some n => min widthLimit (w.most * n)
      | none => if w.most == 0 then 0 else widthLimit }

mutual

def Part.width (groups : List (Nat × Width)) : Part → Width
  | .point _ _ | .any | .set _ _ => { least := 1, most := 1 }
  | .anchor _ | .look _ _ _ => { least := 0, most := 0 }
  | .backref g => (groups.lookup g).getD { least := 0, most := 0 }
  | .repeat _ least most body => (widthOf groups body).repeated least most
  | .either branches => widthOfChoice groups branches
  | .group _ _ _ body | .atomic body => widthOf groups body
  | .condition _ yes no => (widthOf groups yes).choice (widthOf groups no)

def widthOf (groups : List (Nat × Width)) : List Part → Width
  | [] => { least := 0, most := 0 }
  | p :: rest => (p.width groups).append (widthOf groups rest)

def widthOfChoice (groups : List (Nat × Width)) : List (List Part) → Width
  | [] => { least := widthLimit, most := 0 }
  | b :: rest => (widthOf groups b).choice (widthOfChoice groups rest)

end

mutual

def Part.sound (template : Bool) : Part → Bool
  | .point _ _ | .any | .set _ _ | .anchor _ | .backref _ => true
  | .repeat _ _ _ body => !template && soundAll template body
  | .either branches => soundBranches template branches
  | .group _ _ _ body | .atomic body | .look none _ body => soundAll template body
  | .look (some w) _ body => w.least ≤ countLimit && w.least == w.most && soundAll template body
  | .condition _ yes no => soundAll template yes && soundAll template no

def soundAll (template : Bool) : List Part → Bool
  | [] => true
  | p :: rest => p.sound template && soundAll template rest

def soundBranches (template : Bool) : List (List Part) → Bool
  | [] => true
  | b :: rest => soundAll template b && soundBranches template rest

end

end TypeStub.Regex
