import TypeStub.Text.Identifier
/-!
# Letters and digits

The characters that count as part of a word. Beyond ASCII the letters are the characters that may
start an identifier, four apart that may do so for other reasons.
-/

namespace TypeStub.Text

def numeralTable : List CodeRange := readRanges
  "B2-1 6 3-2 2BC 2E6-9 87-9 C7-9 19D-9 77-9 5-5 6D-9 77-9 77-9 3-5 6F-C 74-9 9-6 68-9 69-6 8-12
    6E-9 44 1D-9 5A 1D-9 47-13 10D-9 47-9 2D0-13 464-9 7-9 17-9 12D-9 81-A A6-9 7-9 B7-9 57-9 87-9
    7-9 417 4-5 7-9 C7-F 2A 2D7-3B 4F-15 277-1D 56A 132 363-3 8B-9 1F-7 2-E 21-9 28-E 7361-9 207-5
    9B-9 27-9 C7-9 17-9 57-9 197-9 5065-5 197-1 75 2 2 2 2 2 2 2 92-9 85-1 168-2C 42-3 12-1 156-1A
    25-3 17D-9 3AF-7 1A-6 28-8 4C-4 17-5 A1-1 3-F 3-2D 41-8 35-1 1F-2 4C-4 69-7 19-7 2A-6 14B-5 31-9
    127-1E 9F-9 2B-3 71-6 87-1D 81-9 3D-9 91-9 8-13 FC-9 157-9 77-9 177-9 67-9 67-B 1A5-12 5E-9
    2F7-1C E4-9 47-9 217-14 4A8C-9 57-9 87-9 2-6 31F-16 644A-13 6D-18 456-31 941-9 1A7-9 5CE-8 81-9
    318-3A 2-2 2-3 4D-2C 2-E 3C3-C AE4-9"

def startingSigns : List Nat := [0x1885, 0x1886, 0x2118, 0x212E]

def isAlnum (n : Nat) : Bool :=
  if n < 128 then (48 ≤ n && n ≤ 57) || (65 ≤ n && n ≤ 90) || (97 ≤ n && n ≤ 122)
  else inRanges identifierStartTable n && !startingSigns.contains n || inRanges numeralTable n

/-- Whether a code point is a letter, a numeral or the underscore. -/
def isWord (n : Nat) : Bool :=
  isAlnum n || n == 95

end TypeStub.Text
