import TypeStub.Text.CharacterName.Letters
import TypeStub.Text.CharacterName.Pictures
import TypeStub.Text.CharacterName.Symbols
import TypeStub.Text.Hex
import TypeStub.Text.Split
/-!
# Characters by name

Escapes can name a character. The names of common scripts, symbols and pictographs are listed; those
of ideographs and of Korean syllables follow rules.
-/

namespace TypeStub.Text

namespace CharacterName

/-- Further names of characters, among them those of control characters: the first code point, and the
names of each from there on. -/
def aliases : List (Nat × String) :=
  [(0x0, "NULL; NUL | START OF HEADING; SOH | START OF TEXT; STX | END OF TEXT; ETX | END OF
      TRANSMISSION; EOT | ENQUIRY; ENQ | ACKNOWLEDGE; ACK | ALERT; BEL | BACKSPACE; BS |
      CHARACTER TABULATION; HORIZONTAL TABULATION; HT; TAB | LINE FEED; NEW LINE; END OF LINE;
      LF; NL; EOL | LINE TABULATION; VERTICAL TABULATION; VT | FORM FEED; FF | CARRIAGE RETURN;
      CR | SHIFT OUT; LOCKING-SHIFT ONE; SO | SHIFT IN; LOCKING-SHIFT ZERO; SI | DATA LINK
      ESCAPE; DLE | DEVICE CONTROL ONE; DC1 | DEVICE CONTROL TWO; DC2 | DEVICE CONTROL THREE; DC3
      | DEVICE CONTROL FOUR; DC4 | NEGATIVE ACKNOWLEDGE; NAK | SYNCHRONOUS IDLE; SYN | END OF
      TRANSMISSION BLOCK; ETB | CANCEL; CAN | END OF MEDIUM; EOM | SUBSTITUTE; SUB | ESCAPE; ESC
      | INFORMATION SEPARATOR FOUR; FILE SEPARATOR; FS | INFORMATION SEPARATOR THREE; GROUP
      SEPARATOR; GS | INFORMATION SEPARATOR TWO; RECORD SEPARATOR; RS | INFORMATION SEPARATOR
      ONE; UNIT SEPARATOR; US | SP"),
    (0x7F, "DELETE; DEL | PADDING CHARACTER; PAD | HIGH OCTET PRESET; HOP | BREAK PERMITTED HERE;
      BPH | NO BREAK HERE; NBH | INDEX; IND | NEXT LINE; NEL | START OF SELECTED AREA; SSA | END
      OF SELECTED AREA; ESA | CHARACTER TABULATION SET; HORIZONTAL TABULATION SET; HTS |
      CHARACTER TABULATION WITH JUSTIFICATION; HORIZONTAL TABULATION WITH JUSTIFICATION; HTJ |
      LINE TABULATION SET; VERTICAL TABULATION SET; VTS | PARTIAL LINE FORWARD; PARTIAL LINE
      DOWN; PLD | PARTIAL LINE BACKWARD; PARTIAL LINE UP; PLU | REVERSE LINE FEED; REVERSE INDEX;
      RI | SINGLE SHIFT TWO; SINGLE-SHIFT-2; SS2 | SINGLE SHIFT THREE; SINGLE-SHIFT-3; SS3 |
      DEVICE CONTROL STRING; DCS | PRIVATE USE ONE; PRIVATE USE-1; PU1 | PRIVATE USE TWO; PRIVATE
      USE-2; PU2 | SET TRANSMIT STATE; STS | CANCEL CHARACTER; CCH | MESSAGE WAITING; MW | START
      OF GUARDED AREA; START OF PROTECTED AREA; SPA | END OF GUARDED AREA; END OF PROTECTED AREA;
      EPA | START OF STRING; SOS | SINGLE GRAPHIC CHARACTER INTRODUCER; SGC | SINGLE CHARACTER
      INTRODUCER; SCI | CONTROL SEQUENCE INTRODUCER; CSI | STRING TERMINATOR; ST | OPERATING
      SYSTEM COMMAND; OSC | PRIVACY MESSAGE; PM | APPLICATION PROGRAM COMMAND; APC | NBSP"),
    (0xAD, "SHY"),
    (0x1A2, "LATIN CAPITAL LETTER GHA | LATIN SMALL LETTER GHA"),
    (0x34F, "CGJ"),
    (0x200B, "ZWSP | ZWNJ | ZWJ | LRM | RLM"),
    (0x202A, "LRE | RLE | PDF | LRO | RLO | NNBSP"),
    (0x205F, "MMSP | WJ"),
    (0x2066, "LRI | RLI | FSI | PDI"),
    (0x2118, "WEIERSTRASS ELLIPTIC FUNCTION"),
    (0x2448, "MICR ON US SYMBOL | MICR DASH SYMBOL"),
    (0xFEFF, "BYTE ORDER MARK; BOM; ZWNBSP")]

def wordsBehind (last name : List (List Char)) : List (List Char) :=
  match name with
  | [c] :: rest => if isDigit c then last.take (ofDigits 10 [c]) ++ rest else name
  | _ => name

def commonWords : List (List Char × List Char) :=
  (words (
  "a=ARROW b=BLACK c=CAPITAL d=DOUBLE e=EIGHT f=FACE g=SIGN h=HORIZONTAL i=INVERTED j=JAPANESE
    k=KEYBOARD l=LETTER m=MACRON n=AND o=OPEN p=PLUS q=QUOTATION r=RIGHT s=SMALL t=THREE u=UPPER
    v=VERTICAL w=WITH z=ZERO ab=ABOVE ac=ACUTE ae=ACCENT ai=AIRPLANE an=ANGLE ao=APOSTROPHE
    ap=APPROXIMATELY ar=ARROWHEAD as=ASTERISK at=ANTICLOCKWISE
    az=A/B/C/D/E/F/G/H/I/J/K/L/M/N/O/P/Q/R/S/T/U/V/W/X/Y/Z ba=BLACK-LETTER be=BELOW bi=BUILDING
    bl=BLOCK bn=BALLOON-SPOKED bo=BOTTOM br=BRACKET bu=BULLET bv=BREVE ca=CARON cb=CENTRE cc=COLON
    ce=CEDILLA ci=CIRCLE cl=CLOCKWISE cm=COMMA cn=CORNER co=CROSS cr=CIRCLED cs=CLOSED ct=CONTAINS
    cu=CURLY cx=CIRCUMFLEX da=DIAMOND de=DESCENDER dg=DIAGONAL di=DIAERESIS dl=DIALYTIKA dn=DOWN
    do=DOUBLE-STRUCK dp=DOWN-POINTING dr=DIGRAPH dt=DIGIT dv=DIVISION dw=DOWNWARDS ea=EQUALS
    ee=ELEVEN eg=EIGHTEEN ei=EIGHTHS el=ELEMENT en=ENVELOPE ep=EPSILON eq=EQUAL et=EXTENSION
    eu=EQUIVALENT ex=EXCLAMATION ey=EYES fi=FIVE fo=FOUR fr=FRACTION ge=GREEK gl=GLOTTAL gr=GRAVE
    gt=GREATER-THAN ha=HALF he=HEART hn=HAND ho=HOOK hr=HARPOON hu=HUNDRED hv=HEAVY id=IDEOGRAPHIC
    ie=INTEGRAL in=INDEX it=INTERSECTION la=LATIN lb=LIGATURE le=LEFT-POINTING lf=LEFT lg=LONG
    li=LIGHT ln=LINE lo=LOWER lr=LEFT-TO-RIGHT lt=LESS-THAN lu=LUNATE lw=LEFTWARDS ma=MATHEMATICAL
    me=MEDIUM mi=MIDDLE mk=MARK ml=MULTIPLICATION mn=MINUS mo=MOON ms=MUSICAL mt=MOUNTAIN mu=MOUTH
    ne=NEGATIVE ni=NINE nm=NUMERAL no=NORMAL nu=NUMBER
    ny=ONE/TWO/THREE/FOUR/FIVE/SIX/SEVEN/EIGHT/NINE og=OGONEK om=OMEGA on=ONCOMING op=OPERATOR
    or=ORNAMENT ou=OUTLINED ov=OVER pa=PARENTHESIS pc=PRECEDES pe=PERSON pi=POINTED po=POINTING
    pr=PRIME pu=PUNCTUATION qa=QUADRANT qd=QUAD qr=QUARTER qu=QUESTION ra=RAISED re=REVERSED
    rg=RIGHT-TO-LEFT rh=RIGHT-SHADOWED ri=RIGHT-POINTING rn=RING rt=RETROFLEX rw=RIGHTWARDS sa=STAR
    sb=SUBGROUP sc=SCRIPT sd=SUPERSCRIPT se=SEVEN sf=SUCCEEDS sg=SIGMA sh=SHADOWED si=SINGLE
    sj=SCISSORS sl=SOLIDUS sm=SMILING sn=SANS-SERIF so=STOP sp=SPACE sq=SQUARE sr=SEPARATOR
    ss=SUBSET st=STROKE su=SUPERSET sy=SYMBOL ta=TRIANGULAR tc=TACK te=TEARDROP-SPOKED th=THOUSAND
    ti=TILDE tl=TELEPHONE tn=TRIANGLE-HEADED to=TONOS tp=TRIPLE tr=TRIANGLE tt=TORTOISE tu=TURNED
    tw=TWELVE ty=ELEVEN/TWELVE/THIRTEEN/FOURTEEN/FIFTEEN/SIXTEEN/SEVENTEEN/EIGHTEEN/NINETEEN/TWENTY
    um=UMBRELLA un=UNDERBAR up=UP-POINTING us=UPSILON uw=UPWARDS wh=WHITE"
  ).toList).filterMap fun entry =>
    match splitAt '=' entry with
    | [short, long] => some (short, long)
    | _ => none

/-- The names that one is written for: a word such as `LIGHT/HEAVY` stands for each of its parts in
turn. -/
def alternatives (name : List (List Char)) : List (List (List Char)) :=
  choices (name.map fun w => (splitAt '/' w).flatMap fun part =>
    splitAt '/' ((commonWords.lookup part).getD part))

def namesIn (text : List Char) : List (List Char) :=
  let written := (splitAt ';' text).foldl
    (fun names name => wordsBehind (names.headD []) (words name) :: names) []
  (written.reverse.flatMap alternatives).map (joinWith [' '])

def inRuns? (runs : List (Nat × String)) (name : List Char) : Option Nat :=
  runs.findSome? fun (first, names) => ((namesIn names.toList).idxOf? name).map (first + ·)

def inAliases? (runs : List (Nat × String)) (name : List Char) : Option Nat :=
  runs.findSome? fun (first, names) =>
    ((splitAt '|' names.toList).findIdx? fun text => (namesIn text).contains name).map (first + ·)

def ideographs : List (Nat × Nat) :=
  [(0x3400, 0x4DBF), (0x4E00, 0x9FFF), (0x20000, 0x2A6DF), (0x2A700, 0x2B738), (0x2B740, 0x2B81D),
    (0x2B820, 0x2CEA1), (0x2CEB0, 0x2EBE0), (0x30000, 0x3134A)]

def ideograph? (name : List Char) : Option Nat := do
  let digits ← dropPrefix? "CJK UNIFIED IDEOGRAPH-".toList name
  let upper := digits.all fun c => isHexDigit c && !c.isLower
  if upper && (digits.length == 4 || digits.length == 5) then
    let n := ofDigits 16 digits
    if ideographs.any fun (first, last) => first ≤ n && n ≤ last then some n else none
  else none

def leading : List String :=
  ["G", "GG", "N", "D", "DD", "R", "M", "B", "BB", "S", "SS", "", "J", "JJ", "C", "K", "T", "P",
    "H"]

def vowels : List String :=
  ["A", "AE", "YA", "YAE", "EO", "E", "YEO", "YE", "O", "WA", "WAE", "OE", "YO", "U", "WEO", "WE",
    "WI", "YU", "EU", "YI", "I"]

def trailing : List String :=
  ["", "G", "GG", "GS", "N", "NJ", "NH", "D", "L", "LG", "LM", "LB", "LS", "LT", "LP", "LH", "M",
    "B", "BS", "S", "SS", "NG", "J", "C", "K", "T", "P", "H"]

def longestSound? (sounds : List String) (text : List Char) : Option (Nat × List Char) :=
  sounds.zipIdx.foldl (fun best (sound, i) =>
    match dropPrefix? sound.toList text, best with
    | some rest, none => some (i, rest)
    | some rest, some (_, shortest) => if rest.length < shortest.length then some (i, rest) else best
    | none, _ => best) none

def syllable? (name : List Char) : Option Nat := do
  let sounds ← dropPrefix? "HANGUL SYLLABLE ".toList name
  let (l, rest) ← longestSound? leading sounds
  let (v, rest) ← longestSound? vowels rest
  let (t, rest) ← longestSound? trailing rest
  if rest.isEmpty then some (0xAC00 + (l * 21 + v) * 28 + t) else none

end CharacterName

open CharacterName in
def characterNamed? (name : List Char) : Option Char :=
  let upper := name.map Char.toUpper
  let point? := (syllable? name).orElse fun _ => (ideograph? name).orElse fun _ =>
    (inRuns? letters upper).orElse fun _ => (inRuns? symbols upper).orElse fun _ =>
      (inRuns? pictures upper).orElse fun _ => inAliases? aliases upper
  point?.map Char.ofNat

end TypeStub.Text
