import TypeStub.Text.Ranges
/-!
# Letter case

The lower-case and upper-case forms of single characters, and the lower-case letters that share
an upper-case form. The tables hold what lies beyond ASCII.
-/

namespace TypeStub.Text

/-- The code points `first`, `first + step`, … up to `last`, each of which maps to the code point
at the same distance from `image`. -/
structure CaseRun where
  range : CodeRange
  step : Nat
  image : Nat
  deriving DecidableEq, Repr

def CaseRun.imageOf? (r : CaseRun) (n : Nat) : Option Nat :=
  if r.range.holds n && (n - r.range.first) % r.step == 0 then
    some (r.image + (n - r.range.first))
  else none

/-- Reads one run: `2=FF`, `40-16=E0`, or, for every second code point, `22-2E/2=101`. -/
def CaseRun.read (behind : Nat) (text : List Char) : CaseRun :=
  let (source, image) := match splitAt '=' text with
    | [source, image] => (source, image)
    | _ => (text, text)
  let (codes, step) := match splitAt '/' source with
    | [codes, step] => (codes, ofDigits 10 step)
    | _ => (source, 1)
  { range := CodeRange.read behind codes, step, image := ofDigits 16 image }

def readCaseRuns : String → List CaseRun :=
  readEntries (·.range) fun behind w => [CaseRun.read behind w]

def lowerTable : List CaseRun := readCaseRuns
  "C0-16=E0 2-6=F8 22-2E/2=101 2=69 2-4/2=133 3-E/2=13A 3-2C/2=14B 2=FF 1-4/2=17A 4=253 1-2/2=183
    2=254 1=188 2-1=256 1=18C 3=1DD 1=259 1=25B 1=192 2=260 1=263 2=269 1=268 1=199 4=26F 1=272
    2=275 1-4/2=1A1 2=280 1=1A8 2=283 3=1AD 2=288 1=1B0 2-1=28A 1-2/2=1B4 2=292 1=1B9 4=1BD 8=1C6
    1=1C6 2=1C9 1=1C9 2=1CC 1-10/2=1CC 3-10/2=1DF 3=1F3 1-2/2=1F3 2=195 1=1BF 1-26/2=1F9 2=19E
    2-10/2=223 8=2C65 1=23C 2=19A 1=2C66 3=242 2=180 1=289 1=28C 1-8/2=247 122-2/2=371 4=377 9=3F3
    7=3AC 2-2=3AD 2=3CC 2-1=3CD 2-10=3B1 2-8=3C3 24=3D7 9-16/2=3D9 6=3B8 3=3F8 2=3F2 1=3FB 3-2=37B
    1-F=450 1-1F=430 31-20/2=461 A-34/2=48B 2=4CF 1-C/2=4C2 3-5E/2=4D1 3-25=561 B4A-25=2D00 2=2D27
    6=2D2D 2D3-4F=AB70 1-5=13F8 89B-2A=10D0 3-2=10FD 141-94/2=1E01 A=DF 2-5E/2=1EA1 A-7=1F00
    9-5=1F10 B-7=1F20 9-7=1F30 9-5=1F40 C-6/2=1F51 9-7=1F60 19-7=1F80 9-7=1F90 9-7=1FA0 9-1=1FB0
    1-1=1F70 1=1FB3 C-3=1F72 1=1FC3 C-1=1FD0 1-1=1F76 D-1=1FE0 1-1=1F7A 1=1FE5 C-1=1F78 1-1=1F7C
    1=1FF3 12A=3C9 4=6B 1=E5 7=214E 2E-F=2170 14=2184 333-19=24D0 731-2F=2C30 31=2C61 2=26B 1=1D7D
    1=27D 3-4/2=2C68 2=251 1=271 1=250 1=252 2=2C73 3=2C76 9-1=23F 1-62/2=2C81 9-2/2=2CEC 5=2CF3
    794E-2C/2=A641 14-1A/2=A681 88-C/2=A723 4-3C/2=A733 B-2/2=A77A 2=1D79 1-8/2=A77F 5=A78C 2=265
    3-2/2=A791 4-12/2=A797 2=266 1=25C 1=261 1=26C 1=26A 2=29E 1=287 1=29D 1=AB53 1-E/2=A7B5 2=A794
    1=282 1=1D8E 1-2/2=A7C8 7=A7D1 6-2/2=A7D7 1D=A7F6 572C-19=FF41 4C6-27=10428 89-23=104D8
    9D-A=10597 2-E=105A3 2-6=105B3 2-1=105BB 6EB-32=10CC0 BEE-1F=118C0 5581-1F=16E60 7AA1-21=1E922"

def upperTable : List CaseRun := readCaseRuns
  "B5=39C 2B-16=C0 2-6=D8 1=178 2-2E/2=100 2=49 2-4/2=132 3-E/2=139 3-2C/2=14A 3-4/2=179 1=53 1=243
    3-2/2=182 3=187 4=18B 6=191 3=1F6 4=198 1=23D 4=220 3-4/2=1A0 3=1A7 5=1AC 3=1AF 4-2/2=1B3 3=1B8
    4=1BC 2=1F7 6=1C4 1=1C4 2=1C7 1=1C7 2=1CA 1=1CA 2-E/2=1CD 1=18E 2-10/2=1DE 3=1F1 1=1F1 2=1F4
    4-26/2=1F8 4-10/2=222 9=23B 3-1=2C7E 2=241 5-8/2=246 1=2C6F 1=2C6D 1=2C70 1=181 1=186 2-1=189
    2=18F 2=190 1=A7AB 4=193 1=A7AC 2=194 2=A78D 1=A7AA 2=197 1=196 1=A7AE 1=2C62 1=A7AD 3=19C
    2=2C6E 1=19D 3=19F 8=2C64 3=1A6 2=A7C5 1=1A9 4=A7B1 1=1AE 1=244 1-1=1B1 1=245 6=1B7 B=A7B2
    1=A7B0 A7=399 2C-2/2=370 4=376 4-2=3FD 2F=386 1-2=388 2-10=391 1=3A3 1-8=3A3 1=38C 1-1=38E 2=392
    1=398 4=3A6 1=3A0 1=3CF 2-16/2=3D8 1=39A 1=3A1 1=3F9 1=37F 2=395 3=3F7 3=3FA 35-1F=410 1-F=400
    2-20/2=460 A-34/2=48A 3-C/2=4C1 1=4C0 2-5E/2=4D0 32-25=531 B4A-2A=1C90 3-2=1CBD 2F9-5=13F0
    883=412 1=414 1=41E 1-1=421 1=422 1=42A 1=462 1=A64A F1=A77D 4=2C63 11=A7C6 73-94/2=1E00 6=1E60
    6-5E/2=1EA0 1-7=1F08 9-5=1F18 B-7=1F28 9-7=1F38 9-5=1F48 C-6/2=1F59 9-7=1F68 9-1=1FBA 1-3=1FC8
    1-1=1FDA 1-1=1FF8 1-1=1FEA 1-1=1FFA 33-1=1FB8 D=399 12-1=1FD8 F-1=1FE8 4=1FEC 169=2132 22-F=2160
    5=2183 34C-19=24B6 747-2F=2C00 2=2C60 4=23A 1=23E 2-4/2=2C67 7=2C72 3=2C75 B-62/2=2C80
    9-2/2=2CEB 5=2CF2 D-25=10A0 2=10C7 6=10CD 7914-2C/2=A640 14-1A/2=A680 88-C/2=A722 4-3C/2=A732
    B-2/2=A779 3-8/2=A77E 5=A78B 5-2/2=A790 1=A7C4 3-12/2=A796 C-E/2=A7B4 5-2/2=A7C7 7=A7D0
    6-2/2=A7D6 1D=A7F5 35D=A7B3 1D-4F=13A0 5382-19=FF21 4CE-27=10400 89-23=104B0 9C-A=10570
    2-E=1057C 2-6=1058C 2-1=10594 704-32=10C80 BCE-1F=118A0 5581-1F=16E40 7AA3-21=1E900"

def kinTable : List (Nat × List Nat) := (words (
  "69=131 73=17F B5=3BC 131=69 17F=73 345=3B9.1FBE 390=1FD3 3B0=1FE3 3B2=3D0 3B5=3F5 3B8=3D1
    3B9=345.1FBE 3BA=3F0 3BC=B5 3C0=3D6 3C1=3F1 3C2=3C3 3C3=3C2 3C6=3D5 3D0=3B2 3D1=3B8 3D5=3C6
    3D6=3C0 3F0=3BA 3F1=3C1 3F5=3B5 432=1C80 434=1C81 43E=1C82 441=1C83 442=1C84.1C85 44A=1C86
    463=1C87 1C80=432 1C81=434 1C82=43E 1C83=441 1C84=442.1C85 1C85=442.1C84 1C86=44A 1C87=463
    1C88=A64B 1E61=1E9B 1E9B=1E61 1FBE=345.3B9 1FD3=390 1FE3=3B0 A64B=1C88 FB05=FB06 FB06=FB05").toList).map fun entry =>
  match splitAt '=' entry with
  | [a, b] => (ofDigits 16 a, (splitAt '.' b).map (ofDigits 16))
  | _ => (0, [])

def lowerAscii (n : Nat) : Nat :=
  if 65 ≤ n && n ≤ 90 then n + 32 else n

def lower (n : Nat) : Nat :=
  if n < 128 then lowerAscii n else (lowerTable.findSome? (·.imageOf? n)).getD n

def upper (n : Nat) : Nat :=
  if n < 128 then (if 97 ≤ n && n ≤ 122 then n - 32 else n)
  else (upperTable.findSome? (·.imageOf? n)).getD n

def lowerKin (n : Nat) : List Nat :=
  (kinTable.lookup n).getD []

/-- The code points of a run whose image is `n`. -/
def CaseRun.sourceOf? (r : CaseRun) (n : Nat) : Option Nat :=
  if r.image ≤ n && (r.imageOf? (r.range.first + (n - r.image))).isSome then
    some (r.range.first + (n - r.image))
  else none

/-- The code points whose lower-case form is `n`. -/
def withLower (n : Nat) : List Nat :=
  let ascii := if 97 ≤ n && n ≤ 122 then [n - 32] else []
  (if lower n == n then [n] else []) ++ ascii ++ lowerTable.filterMap (·.sourceOf? n)

end TypeStub.Text
