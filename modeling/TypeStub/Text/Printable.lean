import TypeStub.Text.Word
/-!
# Printable characters

The characters that a quoted text shows as they are; all others are written as escapes. Of ASCII
these are the characters from the space up to the tilde.
-/

namespace TypeStub.Text

/-- The printable characters from U+0080 on that are neither numerals nor part of identifiers. -/
def symbolTable : List CodeRange := readRanges
  "A1-8 2-1 2-3 3 2 2 3 4 18 20 1CB-3 D-D 6-6 2 2-10 76 9 6-1 71 8C 6-1 D1-5 2A-1 3-2 2F 2 3 3 2D-1
    12-9 C 2-2 4B-3 67 A B 14-1 2-D E9-3 5-1 31-E 20 2A DC-1 B 82-1 7-1 2 79 7A-1 7F 83-7 7D 8 5 CB
    2A 7B 4B 10 B-1 A6-16 3-5 15 2 2 2-3 48 39-7 2-5 2-C 70-5 4F-1 5C 265-8 28-9 67 26D-1 2D-1 4F-2
    48-1 9E-2 2-3 25-A 136 4-1 99-21 1F-1 81-6 2-5 11 9C-10 A-A 7E-3 3C-4 3F-1 41-7 C 2EA 2-2 C-2
    E-2 E-2 E-1 12-17 9-E 3-12 2-9 1C-4 C-4 12-20 1D-3 2-2 1C-1 2-3 2-1 B 2-1 7-5 2 2 2 11-1 5-4 6-3
    2 3B-1 5-296 1A-A 52-4D 17-275 1F-3DF 3-1F 2-68 E6-5 F-3 2-1 71 90-2E 2-2D 23-19 2-58 D-D5 1B-B
    6-3 4-18 10 6-1 6-2 5C-1 4 5B 95-1 5-9 21-23 1D-1E C-1D 9 10-1F B-26 10-13F 19C1-3F 5691-36 38-1
    10E-2 61-3 B 74-5 9-16 A-1 68-1 9E-3 B-3 3B-3 57-1 29-2 2 32-1 30 62-C 11-1 7D-3 18-2 65-1 11-1
    6A F-1 80 4F3E 89-10 17C-11 80 2D-3 11-9 17-2 3-17 4-2 2-12 2-3 96-E B-6 1B-3 2 1B-A 7B-6 2-6
    E-1 103-2 35-8 3A-10 3-2 2-C 4 30-2C 1A3 31 19F 2E8 20-1 A7 20 111-8 27 49 28-6 43-6 5A-3 311
    A8-4 2D-3 BE-6 6E-1 2-3 7F-3 31-1 50-3 5 E 2-2 59-5 6C 1A2-4 B-1 2 69 FB-16 6A-2 1D-C 4D 83-3 FC
    109-2 9C 5D-7 54-2 2-4 19F-4 2B-1 286-1 DD-1C E 471-4 B7D-1 3A7C-1 86 42-8 5-1 352-3 148 4CBA 3
    12B1-73 3D-F5 B-26 3-3B 6-2 17-1 8-1D 5-3C 16-41 4 BB-56 36B 1A 20 1A 20 1A 20 1A 20 1A 3D-1FF
    38-3 33-7 2-D 2-6 6C4 1B0 65F-1 34D 4 7E 1C2-1 10F-2B 5-63 D-E 3-E 2-E 2-24 18-A0 39-1C E-2B 5-8
    8-1 F-5 9B-3D7 6-F 4-C 4-73 D-58 8-B 5 10-B 5-37 9-9 7-27 9-1D 3-1 4F-153 D-D 3-4 4-4 4-6 A-1C
    4-A 6-5 B-9 7-7 9-6 A-92 2-36"

def printableTable : List CodeRange :=
  identifierStartTable ++ identifierPartTable ++ numeralTable ++ symbolTable

/-- Whether a code point is shown as it is. Half of a surrogate pair is no character. -/
def isPrintable (n : Nat) : Bool :=
  if n < 128 then 32 ≤ n && n < 127 else n.isValidChar && inRanges printableTable n

end TypeStub.Text
