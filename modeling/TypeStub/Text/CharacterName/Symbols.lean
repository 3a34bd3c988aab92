/-!
# Symbols by name

Punctuation, currency signs, arrows, mathematical signs, boxes and other symbols.
-/

namespace TypeStub.Text.CharacterName

def symbols : List (Nat × String) :=
  [(0x2000, "EN/EM qd;EN/EM/THREE-PER-EM/FOUR-PER-EM/SIX-PER-EM/FIGURE/pu/THIN/HAIR sp;z WIDTH
 sp/NON-JOINER/JOINER;lr/rg mk;HYPHEN;NON-BREAKING HYPHEN;FIGURE/EN/EM DASH;h BAR;d v/LOW ln;lf/r
 si q mk;si LOW-9/HIGH-REVERSED-9 q mk;lf/r d q mk;d LOW-9/HIGH-REVERSED-9 q mk;DAGGER;d DAGGER;
 bu;ta bu;ONE/TWO DOT LEADER;h ELLIPSIS;HYPHENATION POINT;ln/PARAGRAPH sr;lr/rg EMBEDDING;POP
 DIRECTIONAL FORMATTING;lr/rg OVERRIDE;NARROW NO-BREAK sp;PER MILLE g;1 TEN th g;pr;d/tp/re pr;re
 d/tp pr;CARET;si le/ri an q mk;REFERENCE mk;d ex mk;INTERROBANG;OVERLINE;UNDERTIE;CHARACTER TIE;
 CARET INSERTION POINT;ASTERISM;HYPHEN bu;fr SLASH;lf/r sq br w QUILL;d qu mk;qu ex mk;ex qu mk;
 TIRONIAN g ET;re PILCROW g;b lw/rw bu;LOW as;re SEMICOLON;CLOSE UP;TWO ASTERISKS ALIGNED
 VERTICALLY;COMMERCIAL mn g;SWUNG DASH;i UNDERTIE;FLOWER pu mk;t DOT pu;QUADRUPLE pr;fo/fi/TWO
 DOT pu;fo DOT mk;DOTTED co;TRICOLON;v fo DOTS;me ma sp;WORD JOINER;FUNCTION APPLICATION;
 INVISIBLE TIMES/sr/p"),
   (0x2066, "lr/rg ISOLATE;FIRST STRONG ISOLATE;POP DIRECTIONAL ISOLATE;INHIBIT/ACTIVATE SYMMETRIC
 SWAPPING;1 ARABIC FORM SHAPING;NATIONAL/NOMINAL dt SHAPES;sd z;1 la s l I"),
   (0x2074, "sd fo/fi/SIX/se/e/ni;1 p g;1 mn;1 ea g;1 lf/r pa;1 la s l N;SUBSCRIPT z/ny;1 p g;1 mn;
 1 ea g;1 lf/r pa"),
   (0x2090, "la SUBSCRIPT s l A/E/O/X/SCHWA/H/K/L/M/N/P/S/T"),
   (0x20A0, "EURO-CURRENCY/cc/CRUZEIRO g;FRENCH FRANC g;LIRA/MILL/NAIRA/PESETA/RUPEE/WON g;NEW
 SHEQEL g;DONG/EURO/KIP/TUGRIK/DRACHMA g;GERMAN PENNY g;PESO/GUARANI/AUSTRAL/HRYVNIA/CEDI g;LIVRE
 TOURNOIS g;SPESMILO/TENGE g;INDIAN RUPEE g;TURKISH LIRA g;NORDIC mk g;
 MANAT/RUBLE/LARI/BITCOIN/SOM g"),
   (0x2100, "ACCOUNT OF;ADDRESSED TO THE SUBJECT;do c C;DEGREE CELSIUS;cb ln sy;CARE OF;CADA UNA;
 EULER CONSTANT;SCRUPLE;DEGREE FAHRENHEIT;sc s G;sc/ba/do c H;PLANCK CONSTANT;2 ov TWO PI;sc/ba c
 I;sc c/s L;L B BAR sy;do c N;NUMERO g;SOUND RECORDING COPYRIGHT;sc c P;do c P/Q;sc/ba/do c R;
 PRESCRIPTION TAKE;RESPONSE;SERVICE mk;tl g;TRADE mk g;VERSICLE;do c Z;OUNCE/OHM g;i OHM g;ba c
 Z;tu ge s l IOTA;KELVIN/ANGSTROM g;sc c B;ba c C;ESTIMATED sy;sc s/c E;sc/tu c F;sc c M;1 s O;
 ALEF/BET/GIMEL/DALET sy;INFORMATION SOURCE;ROTATED c Q;FACSIMILE g;do s PI/GAMMA;1 c GAMMA/PI;1
 N-ARY SUMMATION;tu sn c G/L;re sn c L;tu sn c Y;do ITALIC c D;2 s D/E/I/J;PROPERTY ln;tu
 AMPERSAND;PER g;AKTIESELSKAB;tu s F;sy FOR SAMARITAN SOURCE;VULGAR fr ONE
 SEVENTH/NINTH/TENTH/THIRD;2 TWO THIRDS;2 ONE FIFTH;2 TWO/t/fo FIFTHS;2 ONE SIXTH;2 fi SIXTHS;2
 ONE EIGHTH;2 t/fi/se ei;fr NUMERATOR ONE;ROMAN nm ny/TEN/ee/tw/FIFTY;2 ONE/fi hu;2 ONE th;s
 ROMAN nm ny/TEN/ee/tw/FIFTY;3 ONE/fi hu;3 ONE th;ROMAN nm ONE th C D;2 fi/TEN th;2 re ONE hu;la
 s l re C;ROMAN nm SIX LATE FORM;2 FIFTY EARLY FORM;3 th;2 ONE hu th;VULGAR fr z THIRDS;tu dt
 TWO/t"),
   (0x2190, "lw/uw/rw/dw a;lf r a;UP dn a;NORTH WEST/EAST a;SOUTH EAST/WEST a;lw/rw a w st;1 WAVE
 a;lw/uw/rw/dw TWO HEADED a;lw/rw a w TAIL;lw/uw/rw/dw a FROM BAR;UP dn a w BASE;lw/rw a w
 ho/LOOP;lf r WAVE a;2 a w st;dw ZIGZAG a;uw a w TIP lw/rw;dw a w TIP lw/rw;rw a w cn dw;dw a w
 cn lw;at/cl TOP SEMICIRCLE a;NORTH WEST a TO lg BAR;lw a TO BAR ov rw a TO BAR;at/cl o ci a;lw
 hr w BARB uw/dw;uw hr w BARB rw/lw;rw hr w BARB uw/dw;dw hr w BARB rw/lw;rw a ov lw a;uw a lw OF
 dw a;lw a ov rw a;lw/uw/rw/dw PAIRED ARROWS;lw hr ov rw hr;rw hr ov lw hr;lw d a w st;lf r d a w
 st;rw d a w st;lw/uw/rw/dw d a;lf r d a;UP dn d a;NORTH WEST/EAST d a;SOUTH EAST/WEST d a;lw/rw
 tp/SQUIGGLE a;uw/dw a w d st;lw/uw/rw/dw DASHED a;lw/rw a TO BAR;lw/uw/rw/dw wh a;uw wh a FROM
 BAR;3 ON PEDESTAL;5 w h/v BAR;2 d a;4 ON PEDESTAL;rw wh a FROM WALL;NORTH WEST a TO cn;SOUTH
 EAST a TO cn;UP dn wh a;r a w s ci;dw a lw OF uw a;t rw ARROWS;lw/rw a w v st;lf r a w v st;
 lw/rw a w d v st;lf r a w d v st;lw/rw OPEN-HEADED a;lf r OPEN-HEADED a;FOR ALL;COMPLEMENT;
 PARTIAL DIFFERENTIAL;THERE EXISTS;1 DOES NOT EXIST;EMPTY SET;INCREMENT;NABLA;el OF;NOT AN el OF;
 s el OF;ct AS MEMBER;DOES NOT CONTAIN AS MEMBER;s ct AS MEMBER;END OF PROOF;N-ARY
 PRODUCT/COPRODUCT/SUMMATION;mn/MINUS-OR-PLUS g;DOT p;dv SLASH;SET mn;as/rn/bu op;sq/CUBE/FOURTH
 ROOT;PROPORTIONAL TO;INFINITY;r an;an;MEASURED/SPHERICAL an;DIVIDES;DOES NOT DIVIDE;PARALLEL TO;
 NOT PARALLEL TO;LOGICAL n/OR;it;UNION;ie;d/tp/CONTOUR/SURFACE/VOLUME/cl ie;cl/at CONTOUR ie;
 THEREFORE;BECAUSE;RATIO;PROPORTION;DOT mn;EXCESS;GEOMETRIC PROPORTION;HOMOTHETIC;ti op;re ti;i
 LAZY S;SINE WAVE;WREATH PRODUCT;NOT/mn ti;ASYMPTOTICALLY eq TO;NOT ASYMPTOTICALLY eq TO;ap eq
 TO;1 BUT NOT ACTUALLY eq TO;NEITHER ap NOR ACTUALLY eq TO;ALMOST eq TO;NOT ALMOST eq TO;ALMOST
 eq OR eq TO;tp ti;ALL eq TO;eu TO;GEOMETRICALLY eu TO;DIFFERENCE BETWEEN;APPROACHES THE LIMIT;
 GEOMETRICALLY eq TO;ap eq TO OR THE IMAGE OF;IMAGE OF OR ap eq TO;cc ea;ea cc;rn IN eq TO;1 eq
 TO;CORRESPONDS TO;ESTIMATES;EQUIANGULAR TO;sa ea;DELTA eq TO;eq TO BY DEFINITION;MEASURED BY;
 QUESTIONED/NOT eq TO;IDENTICAL TO;NOT IDENTICAL TO;STRICTLY eu TO;lt/gt OR/ov eq TO;1 BUT NOT eq
 TO;MUCH lt/gt;BETWEEN;NOT eu TO;1 lt/gt;NEITHER lt/gt NOR eq TO;lt/gt OR eu TO;NEITHER lt/gt NOR
 eu TO;lt OR gt;gt OR lt;NEITHER lt NOR gt;1 gt NOR lt;pc;sf;pc/sf OR eq/eu TO;DOES NOT
 PRECEDE/SUCCEED;ss/su OF;NOT A ss/su OF;ss/su OF OR eq TO;NEITHER A ss/su OF NOR eq TO;ss/su OF
 w NOT eq TO;MULTISET;1 ml/UNION;sq IMAGE/ORIGINAL OF;3 OR eq TO;1 CAP/CUP;cr p/mn/TIMES;1 dv
 SLASH;1 DOT/rn/as op;1 ea/DASH;SQUARED p/mn/TIMES;1 DOT op;r/lf/dn/UP tc;ASSERTION;MODELS;TRUE;
 FORCES;tp v BAR r TURNSTILE;d v BAR d r TURNSTILE;DOES NOT PROVE;NOT TRUE;DOES NOT FORCE;NEGATED
 d v BAR d r TURNSTILE;pc/sf UNDER RELATION;no sb OF;ct AS no sb;no sb OF OR eq TO;ct AS no sb OR
 eq TO;ORIGINAL/IMAGE OF;MULTIMAP;HERMITIAN CONJUGATE MATRIX;INTERCALATE;XOR;NAND;NOR;r an w ARC;
 1 tr;N-ARY LOGICAL n/OR;1 it/UNION;da/DOT/sa op;dv TIMES;BOWTIE;lf/r no FACTOR SEMIDIRECT
 PRODUCT;1 SEMIDIRECT PRODUCT;re ti ea;cu LOGICAL OR/n;d ss/su/it/UNION;PITCHFORK;eq n PARALLEL
 TO;lt/gt w DOT;VERY MUCH lt/gt;lt eq TO OR gt;gt eq TO OR lt;eq TO OR lt/gt/pc/sf;DOES NOT
 PRECEDE/SUCCEED OR eq;NOT sq IMAGE/ORIGINAL OF OR eq TO;sq IMAGE/ORIGINAL OF OR NOT eq TO;
 lt/gt/pc/sf BUT NOT eu TO;NOT no sb OF;DOES NOT CONTAIN AS no sb;NOT no sb OF OR eq TO;DOES NOT
 CONTAIN AS no sb OR eq;v ELLIPSIS;MIDLINE h ELLIPSIS;UP/dn r dg ELLIPSIS;el OF w lg h st;3 v BAR
 AT END OF h st;s el OF w v BAR AT END OF h st;el OF w DOT ab;3 OVERBAR;s el OF w OVERBAR;el OF w
 un;3 TWO h STROKES;ct w lg h st;2 v BAR AT END OF h st;s ct w v BAR AT END OF h st;ct w OVERBAR;
 s ct w OVERBAR;Z NOTATION BAG MEMBERSHIP;DIAMETER g;ELECTRIC a;HOUSE;UP/dn ar;PROJECTIVE;
 PERSPECTIVE;WAVY ln;lf/r CEILING/FLOOR;bo r/lf CROP;TOP r/lf CROP;re NOT g;sq LOZENGE;ARC;
 SEGMENT;SECTOR;tl RECORDER;POSITION INDICATOR;VIEWDATA sq;PLACE OF INTEREST g;tu NOT g;WATCH;
 HOURGLASS;TOP lf/r cn;bo lf/r cn;TOP/bo ha ie;FROWN;SMILE;UP ar BETWEEN TWO h BARS;OPTION KEY;
 ERASE TO THE r;X IN A RECTANGLE BOX;k;le/ri an br;ERASE TO THE lf;BENZENE rn;CYLINDRICITY;ALL
 AROUND-PROFILE;SYMMETRY;TOTAL RUNOUT;DIMENSION ORIGIN;CONICAL TAPER;SLOPE;COUNTERBORE;
 COUNTERSINK;APL FUNCTIONAL sy I-BEAM;3 SQUISH qd;3 qd eq/DIVIDE/da/JOT/ci;3 ci STILE/JOT;3
 SLASH/BACKSLASH BAR;3 qd SLASH/BACKSLASH/lt/gt;3 lw/rw VANE;3 qd lw/rw a;3 ci BACKSLASH;3 dn tc
 un;3 DELTA STILE;3 qd dn CARET;4 DELTA;3 dn tc JOT;3 uw VANE;3 qd uw a;3 UP tc OVERBAR;3 DEL
 STILE;3 qd UP CARET;4 DEL;3 UP tc JOT;3 dw VANE;3 qd dw a;3 QUOTE/DELTA/da/JOT/ci un;3 UP SHOE
 JOT;3 QUOTE qd;3 ci sa;3 qd cc;3 UP tc di;3 DEL/sa/JOT/ci di;3 dn/lf SHOE STILE;3 ti/gt di;3 cm
 BAR;3 DEL ti;3 ZILDE;3 STILE ti;3 SEMICOLON un;3 qd NOT eq;4 qu;3 dn/UP CARET ti;3 IOTA/RHO/om;3
 ALPHA/ep/IOTA/om un;3 ALPHA;NOT CHECK mk;r an w dw ZIGZAG a;SHOULDERED o BOX;BELL sy;v ln w mi
 DOT;INSERTION sy;CONTINUOUS/DISCONTINUOUS UNDERLINE sy;EMPHASIS/COMPOSITION sy;wh sq w cb v ln;
 ENTER sy;ALTERNATIVE KEY sy;HELM sy;cr h BAR w NOTCH;1 tr dn;BROKEN ci w NORTHWEST a;
 UNDO/MONOSTABLE/HYSTERESIS sy;OPEN-CIRCUIT-OUTPUT H-TYPE/L-TYPE sy;
 PASSIVE-PULL-DOWN-OUTPUT/PASSIVE-PULL-UP-OUTPUT sy;DIRECT CURRENT sy FORM TWO;SOFTWARE-FUNCTION
 sy;APL FUNCTIONAL sy qd;DECIMAL sr KEY sy;PREVIOUS/NEXT PAGE;PRINT/CLEAR SCREEN sy;lf pa u ho;2
 et;2 lo ho;r pa u ho;2 et;2 lo ho;lf sq br u cn;3 et;3 lo cn;r sq br u cn;3 et;3 lo cn;lf cu br
 u ho;3 mi PIECE;3 lo ho;cu br et;r cu br u ho;3 mi PIECE;3 lo ho;ie et;h ln et;u lf OR lo r cu
 br SECTION;1 r OR lo lf cu br SECTION;SUMMATION TOP/bo;TOP/bo sq br;bo sq br ov TOP sq br;
 RADICAL sy bo;lf/r v BOX ln;h SCAN LINE-1/LINE-3/LINE-7/LINE-9;DENTISTRY sy li v n TOP/bo r;4 w
 ci;3 dn/UP n h w ci;3 v w tr;3 dn/UP n h w tr;3 v n WAVE;3 dn/UP n h w WAVE;5 h;3 v n TOP/bo lf;
 sq FOOT;RETURN/EJECT sy;v ln et;METRICAL bv;1 lg ov SHORT;1 SHORT ov lg;1 lg ov TWO SHORTS;1 TWO
 SHORTS ov lg;3 JOINED;1 TRISEME/TETRASEME/PENTASEME;EARTH GROUND;FUSE;TOP/bo pa;1 cu br;1 tt
 SHELL br;wh TRAPEZIUM;BENZENE rn w ci;STRAIGHTNESS;FLATNESS;AC CURRENT;ELECTRICAL it;DECIMAL
 EXPONENT sy;b ri/le/up/dp d tr;1 ri/le d tr w v BAR;1 ri tr w d v BAR;ALARM CLOCK;STOPWATCH;
 TIMER CLOCK;HOURGLASS w FLOWING SAND;b me le/ri/up/dp tr;d v BAR;b sq FOR so;1 ci FOR RECORD;
 POWER sy;1 ON-OFF/ON/SLEEP sy;OBSERVER EYE sy;sy FOR NULL;2 START OF HEADING/TEXT;2 END OF
 TEXT/TRANSMISSION;2 ENQUIRY/ACKNOWLEDGE/BELL/BACKSPACE;2 h TABULATION;2 ln FEED;2 v TABULATION;2
 FORM FEED;2 CARRIAGE RETURN;2 SHIFT OUT/IN;2 DATA LINK ESCAPE;2 DEVICE CONTROL ONE/TWO/t/fo;2 ne
 ACKNOWLEDGE;2 SYNCHRONOUS IDLE;2 END OF TRANSMISSION bl;2 CANCEL;2 END OF me;2
 SUBSTITUTE/ESCAPE;2 FILE/GROUP/RECORD/UNIT sr;2 sp/DELETE;BLANK sy;o BOX;sy FOR NEWLINE;2
 DELETE/SUBSTITUTE FORM TWO"),
   (0x2460, "cr dt ny;1 nu TEN;2 ty;PARENTHESIZED dt ny;1 nu TEN;2 ty;dt ny FULL so;nu TEN FULL so;
 1 ty FULL so;PARENTHESIZED la s l az;cr la c l az;2 s l az;1 dt z;ne cr nu ty;d cr dt ny;2 nu
 TEN;ne cr dt z;BOX DRAWINGS li/hv h/v;3 tp DASH h/v;3 QUADRUPLE DASH h/v;2 li dn n r;2 dn li n r
 hv;3 hv n r li;2 hv dn n r;2 li dn n lf;2 dn li n lf hv;3 hv n lf li;2 hv dn n lf;2 li UP n r;2
 UP li n r hv;3 hv n r li;2 hv UP n r;2 li UP n lf;2 UP li n lf hv;3 hv n lf li;2 hv UP n lf;2 li
 v n r;2 v li n r hv;2 UP hv n r dn li;2 dn hv n r UP li;2 v hv n r li;2 dn li n r UP hv;2 UP li
 n r dn hv;2 hv v n r;2 li v n lf;2 v li n lf hv;2 UP hv n lf dn li;2 dn hv n lf UP li;2 v hv n
 lf li;2 dn li n lf UP hv;2 UP li n lf dn hv;2 hv v n lf;2 li dn n h;2 lf hv n r dn li;2 r hv n
 lf dn li;2 dn li n h hv;3 hv n h li;2 r li n lf dn hv;2 lf li n r dn hv;2 hv dn n h;2 li UP n h;
 2 lf hv n r UP li;2 r hv n lf UP li;2 UP li n h hv;3 hv n h li;2 r li n lf UP hv;2 lf li n r UP
 hv;2 hv UP n h;2 li v n h;2 lf hv n r v li;2 r hv n lf v li;2 v li n h hv;2 UP hv n dn h li;2 dn
 hv n UP h li;2 v hv n h li;2 lf UP hv n r dn li;2 r UP hv n lf dn li;2 lf dn hv n r UP li;2 r dn
 hv n lf UP li;2 dn li n UP h hv;2 UP li n dn h hv;2 r li n lf v hv;2 lf li n r v hv;2 hv v n h;2
 li/hv d DASH h/v;2 d h/v;2 dn si n r d;3 d n r si;2 d dn n r;2 dn si n lf d;3 d n lf si;2 d dn n
 lf;2 UP si n r d;3 d n r si;2 d UP n r;2 UP si n lf d;3 d n lf si;2 d UP n lf;2 v si n r d;3 d n
 r si;2 d v n r;2 v si n lf d;3 d n lf si;2 d v n lf;2 dn si n h d;3 d n h si;2 d dn n h;2 UP si
 n h d;3 d n h si;2 d UP n h;2 v si n h d;3 d n h si;2 d v n h;2 li ARC dn n r/lf;4 UP n lf/r;3
 dg u r TO lo lf;5 lf TO lo r;4 co;3 lf/UP/r/dn;2 hv lf/UP/r/dn;2 li lf n hv r;3 UP n hv dn;2 hv
 lf n li r;3 UP n li dn;u ha bl;lo ONE EIGHTH/qr bl;1 t ei bl;1 ha bl;1 fi ei bl;1 t QUARTERS bl;
 1 se ei bl;FULL bl;lf se ei bl;1 t QUARTERS bl;1 fi ei bl;1 ha bl;1 t ei bl;1 ONE qr/EIGHTH bl;r
 ha bl;li/me/DARK SHADE;u/r ONE EIGHTH bl;qa lo lf/r;1 u lf;3 n lo lf n lo r;5 r;4 u r n lo lf/r;
 2 r;3 n lo lf;6 n lo r;b/wh sq;wh sq w ROUNDED CORNERS;2 CONTAINING b s sq;sq w h/v FILL;2
 ORTHOGONAL CROSSHATCH FILL;2 u lf TO lo r FILL;3 r TO lo lf FILL;2 dg CROSSHATCH FILL;b/wh s sq;
 1 RECTANGLE;1 v RECTANGLE;1 PARALLELOGRAM;1 up tr;2 s tr;1 ri tr;2 s tr;2 POINTER;1 dp tr;2 s
 tr;1 le tr;2 s tr;2 POINTER;1 da;wh da CONTAINING b s da;FISHEYE;LOZENGE;wh/DOTTED ci;ci w v
 FILL;BULLSEYE;b ci;ci w lf/r/lo/u ha b;2 u r qa b;2 ALL BUT u lf qa b;lf/r ha b ci;INVERSE bu;1
 wh ci;u/lo ha INVERSE wh ci;u lf/r qa CIRCULAR ARC;lo r/lf qa CIRCULAR ARC;u/lo ha ci;b lo r/lf
 tr;1 u lf/r tr;wh bu;sq w lf/r ha b;2 u lf dg ha b;2 lo r dg ha b;wh sq w v BISECTING ln;1 up tr
 w DOT;up tr w lf/r ha b;LARGE ci;wh sq w u/lo lf qa;3 lo/u r qa;1 ci w u/lo lf qa;3 lo/u r qa;u
 lf/r tr;lo lf tr;wh/b me sq;2 s sq;lo r tr;b SUN w RAYS;CLOUD;um;SNOWMAN;COMET;b/wh sa;
 LIGHTNING;THUNDERSTORM;SUN;ASCENDING/DESCENDING NODE;CONJUNCTION;OPPOSITION;b/wh tl;BALLOT BOX;2
 w CHECK/X;SALTIRE;um w RAIN DROPS;HOT BEVERAGE;wh/b SHOGI PIECE;SHAMROCK;re ROTATED FLORAL he
 bu;b lf/r po in;wh lf/UP/r/dn po in;SKULL n CROSSBONES;CAUTION/RADIOACTIVE/BIOHAZARD g;CADUCEUS;
 ANKH;ORTHODOX co;CHI RHO;co OF LORRAINE/JERUSALEM;sa n CRESCENT;FARSI sy;ADI SHAKTI;HAMMER n
 SICKLE;PEACE sy;YIN YANG;TRIGRAM FOR HEAVEN/LAKE/FIRE/THUNDER/WIND/WATER/mt/EARTH;WHEEL OF
 DHARMA;wh FROWNING f;wh/b sm f;wh SUN w RAYS;FIRST/LAST qr mo;MERCURY;FEMALE g;EARTH;MALE g;
 JUPITER;SATURN;URANUS;NEPTUNE;PLUTO;ARIES;TAURUS;GEMINI;CANCER;LEO;VIRGO;LIBRA;SCORPIUS;
 SAGITTARIUS;CAPRICORN;AQUARIUS;PISCES;wh CHESS KING/QUEEN/ROOK/BISHOP/KNIGHT/PAWN;b CHESS
 KING/QUEEN/ROOK/BISHOP/KNIGHT/PAWN;1 SPADE SUIT;wh he/da SUIT;b CLUB SUIT;wh SPADE SUIT;b he/da
 SUIT;wh CLUB SUIT;HOT SPRINGS;qr/EIGHTH NOTE;BEAMED EIGHTH/SIXTEENTH NOTES;MUSIC
 FLAT/NATURAL/SHARP g;WEST/EAST SYRIAC co;UNIVERSAL RECYCLING sy;RECYCLING sy FOR
 TYPE-1/TYPE-2/TYPE-3/TYPE-4/TYPE-5/TYPE-6/TYPE-7 PLASTICS;3 GENERIC MATERIALS;b UNIVERSAL
 RECYCLING sy;RECYCLED/PARTIALLY-RECYCLED PAPER sy;PERMANENT PAPER g;WHEELCHAIR sy;DIE
 FACE-1/FACE-2/FACE-3/FACE-4/FACE-5/FACE-6;wh ci w DOT r;3 TWO DOTS;b ci w wh DOT r;3 TWO wh
 DOTS;MONOGRAM FOR YANG/YIN;DIGRAM FOR GREATER YANG;2 LESSER YIN/YANG;2 GREATER YIN;wh/b FLAG;
 HAMMER n PICK;ANCHOR;CROSSED SWORDS;STAFF OF AESCULAPIUS;SCALES;ALEMBIC;FLOWER;GEAR;STAFF OF
 HERMES;ATOM sy;FLEUR-DE-LIS;ou wh sa;t LINES CONVERGING r/lf;WARNING g;HIGH VOLTAGE g;DOUBLED
 FEMALE/MALE g;INTERLOCKED FEMALE n MALE g;MALE n FEMALE g;1 w st g;3 n MALE n FEMALE g;v/h MALE
 w st g;me wh/b ci;1 s wh ci;MARRIAGE/DIVORCE sy;UNMARRIED PARTNERSHIP sy;COFFIN;FUNERAL URN;
 NEUTER;CERES;PALLAS;JUNO;VESTA;CHIRON;b mo LILITH;SEXTILE;SEMISEXTILE;QUINCUNX;SESQUIQUADRATE;
 SOCCER BALL;BASEBALL;SQUARED KEY;wh DRAUGHTS MAN/KING;b DRAUGHTS MAN/KING;SNOWMAN WITHOUT SNOW;
 SUN BEHIND CLOUD;RAIN;b SNOWMAN;THUNDER CLOUD n RAIN;tu wh/b SHOGI PIECE;wh da IN sq;CROSSING
 LANES;DISABLED CAR;OPHIUCHUS;PICK;CAR SLIDING;HELMET w wh co;cr CROSSING LANES;CHAINS;NO ENTRY;
 ALTERNATE ONE-WAY lf WAY TRAFFIC;b/wh TWO-WAY lf WAY TRAFFIC;1 lf LANE MERGE;DRIVE SLOW g;hv wh
 dp tr;lf cs ENTRY;SQUARED SALTIRE;FALLING dg IN wh ci IN b sq;b TRUCK;RESTRICTED lf
 ENTRY-1/ENTRY-2;ASTRONOMICAL sy FOR URANUS;hv ci w st n TWO DOTS ab;PENTAGRAM;
 RIGHT-HANDED/LEFT-HANDED INTERLACED PENTAGRAM;i PENTAGRAM;b co ON SHIELD;SHINTO SHRINE;CHURCH;
 CASTLE;HISTORIC SITE;GEAR WITHOUT HUB;1 w HANDLES;MAP sy FOR LIGHTHOUSE;mt;um ON GROUND;
 FOUNTAIN;FLAG IN HOLE;FERRY;SAILBOAT;sq fo CORNERS;SKIER;ICE SKATE;pe w BALL;TENT;j BANK sy;
 HEADSTONE GRAVEYARD sy;FUEL PUMP;CUP ON b sq;wh FLAG w h mi b STRIPE;b SAFETY sj;u BLADE sj;b
 sj;lo BLADE sj;wh sj;1 hv CHECK mk;tl LOCATION g;TAPE DRIVE;ai;en;ra FIST/hn;VICTORY/WRITING hn;
 lo r PENCIL;PENCIL;u r PENCIL;wh/b NIB;CHECK mk;hv CHECK mk;ml X;hv ml X;BALLOT X;hv BALLOT X;
 ou/hv ge co;o cb co;hv o cb co;la co;sh wh la co;ou la co;MALTESE co;sa OF DAVID;fo te/bn as;hv
 fo bn as;fo CLUB-SPOKED as;b/wh fo pi sa;SPARKLES;STRESS ou wh sa;cr wh sa;o cb b sa;b cb wh sa;
 ou b sa;hv ou b sa;PINWHEEL sa;sh wh sa;hv as;o cb as;e SPOKED as;1 pi b/PINWHEEL sa;SIX pi b
 sa;e pi RECTILINEAR b sa;hv e pi RECTILINEAR b sa;tw pi b sa;SIXTEEN pi as;te as;o cb te as;hv
 te as;SIX PETALLED b n wh FLORETTE;b/wh FLORETTE;e PETALLED ou b FLORETTE;cr o cb e pi sa;hv te
 PINWHEEL as;SNOWFLAKE;TIGHT TRIFOLIATE SNOWFLAKE;hv CHEVRON SNOWFLAKE;SPARKLE;hv SPARKLE;bn as;e
 te PROPELLER as;hv e te PROPELLER as;co mk;sh wh ci;ne SQUARED co mk;lo/u r DROP-SHADOWED/sh wh
 sq;b/wh qu mk or;wh ex mk or;b da mn wh X;hv ex mk sy;li/me/hv v BAR;hv si tu cm q mk or;2 cm q
 mk or;1 d tu cm q mk or;2 cm q mk or;1 LOW si/d cm q mk or;CURVED STEM PARAGRAPH g or;hv ex mk
 or;1 he ex mk or;1 b he;ROTATED hv b he bu;FLORAL he;ROTATED FLORAL he bu;me lf/r pa or;1
 FLATTENED lf/r pa or;1 le/ri an br or;hv le/ri an q mk or;3 br or;li lf/r tt SHELL br or;me lf/r
 cu br or;DINGBAT ne cr dt ny;3 nu TEN;1 cr sn dt ny;3 nu TEN;1 ne cr sn dt ny;4 nu TEN;hv
 WIDE-HEADED rw a;1 p/mn/dv g;1 SOUTH EAST a;1 rw a;1 NORTH EAST a;DRAFTING POINT rw a;hv
 ROUND-TIPPED rw a;tn rw a;hv/DASHED tn rw a;hv DASHED tn rw a;b rw a;THREE-D
 TOP-LIGHTED/BOTTOM-LIGHTED rw ar;b rw ar;hv b CURVED dw/uw n rw a;SQUAT b rw a;hv
 CONCAVE-POINTED b rw a;RIGHT-SHADED/LEFT-SHADED wh rw a;BACK-TILTED/FRONT-TILTED sh wh rw a;hv
 lo/u rh wh rw a;NOTCHED lo rh wh rw a;cu LOOP;NOTCHED u rh wh rw a;cr hv wh rw a;WHITE-FEATHERED
 rw a;BLACK-FEATHERED SOUTH EAST a;1 rw a;1 NORTH EAST a;hv BLACK-FEATHERED SOUTH EAST a;2 rw a;2
 NORTH EAST a;TEARDROP-BARBED rw a;hv TEARDROP-SHANKED rw a;WEDGE-TAILED rw a;hv WEDGE-TAILED rw
 a;OPEN-OUTLINED rw a;d cu LOOP;t DIMENSIONAL an;wh tr CONTAINING s wh tr;PERPENDICULAR;o ss/su;
 lf/r S-SHAPED BAG DELIMITER;OR w DOT INSIDE;REVERSE sl PRECEDING ss;su PRECEDING sl;v BAR w h
 st;ma RISING dg;lg dv;ma FALLING dg;SQUARED LOGICAL n/OR;wh da w CENTRED DOT;n w DOT;el OF
 OPENING uw;lo r cn w DOT;u lf cn w DOT;lf/r/FULL OUTER JOIN;LARGE UP/dn tc;lf n r d TURNSTILE;3
 tc;1 MULTIMAP;lg r/lf tc;UP tc w ci ab;LOZENGE DIVIDED BY h RULE;wh CONCAVE-SIDED da;3 w lw/rw
 TICK;1 sq w lw/rw TICK;ma lf/r wh sq br;2 an br;2 d an br;2 wh tt SHELL br;2 FLATTENED pa;uw/dw
 QUADRUPLE a;at/cl GAPPED ci a;r a w cr p;lg lw/rw a;1 lf r a;1 lw/rw d a;1 lf r d a;1 lw/rw a
 FROM BAR;2 d a FROM BAR;1 rw SQUIGGLE a"),
   (0x3000, "id sp/cm;1 FULL so;DITTO mk;j INDUSTRIAL STANDARD sy;id ITERATION/CLOSING mk;1 nu z;
 lf/r an br;1 d an br;1 cn br;1 wh cn br;1 b LENTICULAR br;POSTAL/GETA mk;lf/r tt SHELL br;1 wh
 LENTICULAR br;2 tt SHELL br;2 sq br;WAVE DASH;re d pr q mk;d pr q mk;LOW d pr q mk;POSTAL mk f;
 HANGZHOU nm ny;id LEVEL/RISING/DEPARTING/ENTERING TONE mk;HANGUL si/d DOT TONE mk;WAVY DASH;v
 KANA REPEAT mk;3 w VOICED SOUND mk;3 mk u ha;3 w VOICED SOUND mk u ha;3 mk lo ha;cr POSTAL mk;id
 TELEGRAPH ln FEED sr sy;HANGZHOU nm TEN/TWENTY/THIRTY;v id ITERATION mk;MASU mk;PART ALTERNATION
 mk;id VARIATION INDICATOR;1 ha FILL sp"),
   (0xFB00, "la s lb FF/FI/FL/FFI/FFL;3 lg S T;3 ST"),
   (0xFE00, "VARIATION SELECTOR-1/SELECTOR-2;1
 SELECTOR-3/SELECTOR-4/SELECTOR-5/SELECTOR-6/SELECTOR-7/SELECTOR-8/SELECTOR-9;1
 SELECTOR-10/SELECTOR-11/SELECTOR-12/SELECTOR-13/SELECTOR-14/SELECTOR-15/SELECTOR-16"),
   (0xFEFF, "z WIDTH NO-BREAK sp"),
   (0xFF01, "FULLWIDTH ex/q mk;1 nu/DOLLAR/PERCENT g;1 AMPERSAND/ao;1 lf/r pa;1 as;1 p g;1
 cm/HYPHEN-MINUS;1 FULL so;1 sl;1 dt z/ny;1 cc/SEMICOLON;1 lt/ea/gt g;1 qu mk;1 COMMERCIAL AT;1
 la c l az;1 lf sq br;1 REVERSE sl;1 r sq br;1 cx ae;1 LOW ln;1 gr ae;1 la s l az;1 lf cu br;1 v
 ln;1 r cu br;1 ti"),
   (0xFFFC, "OBJECT REPLACEMENT CHARACTER;REPLACEMENT CHARACTER")]

end TypeStub.Text.CharacterName
