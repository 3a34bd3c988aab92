/-!
# Letters by name

Latin, Greek and Cyrillic letters, digits, and the marks that go with them.
-/

namespace TypeStub.Text.CharacterName

def letters : List (Nat × String) :=
  [(0x20, "sp;ex/q mk;nu/DOLLAR/PERCENT g;AMPERSAND;ao;lf/r pa;as;p g;cm;HYPHEN-MINUS;FULL so;sl;dt
 z/ny;cc;SEMICOLON;lt/ea/gt g;qu mk;COMMERCIAL AT;la c l az;lf sq br;REVERSE sl;r sq br;cx ae;LOW
 ln;gr ae;la s l az;lf cu br;v ln;r cu br;ti"),
   (0xA0, "NO-BREAK sp;i ex mk;CENT/POUND/CURRENCY/YEN g;BROKEN BAR;SECTION g;di;COPYRIGHT g;
 FEMININE ORDINAL INDICATOR;le d an q mk;NOT g;SOFT HYPHEN;REGISTERED g;m;DEGREE/PLUS-MINUS g;sd
 TWO/t;ac ae;MICRO/PILCROW g;mi DOT;ce;sd ONE;MASCULINE ORDINAL INDICATOR;ri d an q mk;VULGAR fr
 ONE qr/ha;2 t QUARTERS;i qu mk;la c l A w gr/ac/cx/ti/di;5 rn ab;3 AE;3 C w ce;3 E w
 gr/ac/cx/di;3 I w gr/ac/cx/di;3 ETH;3 N w ti;3 O w gr/ac/cx/ti/di;ml g;la c l O w st;3 U w
 gr/ac/cx/di;3 Y w ac;3 THORN;1 s l SHARP S;3 A w gr/ac/cx/ti/di;5 rn ab;3 AE;3 C w ce;3 E w
 gr/ac/cx/di;3 I w gr/ac/cx/di;3 ETH;3 N w ti;3 O w gr/ac/cx/ti/di;dv g;la s l O w st;3 U w
 gr/ac/cx/di;3 Y w ac;3 THORN;3 Y w di;1 c/s l A w m/bv/og;3 C w ac/cx;5 DOT ab;5 ca;3 D w ca/st;
 3 E w m/bv;5 DOT ab;5 og/ca;3 G w cx/bv;5 DOT ab;5 ce;3 H w cx/st;3 I w ti/m/bv/og;1 c l I w DOT
 ab;1 s l DOTLESS I;1 c/s lb IJ;2 l J w cx;3 K w ce;1 s l KRA;1 c/s l L w ac/ce/ca;5 mi DOT;5 st;
 3 N w ac/ce/ca;1 s l N PRECEDED BY ao;1 c/s l ENG;3 O w m/bv;5 d ac;2 lb OE;2 l R w ac/ce/ca;3 S
 w ac/cx/ce/ca;3 T w ce/ca/st;3 U w ti/m/bv;5 rn ab;5 d ac;5 og;3 W/Y w cx;1 c l Y w di;1 c/s l Z
 w ac;5 DOT ab;5 ca;1 s l lg S;3 B w st;1 c l B w ho/TOPBAR;1 s l B w TOPBAR;1 c/s l TONE SIX;1 c
 l o O;1 c/s l C w ho;1 c l AFRICAN D;3 D w ho/TOPBAR;1 s l D w TOPBAR;3 tu DELTA;1 c l re E;3
 SCHWA;3 o E;1 c/s l F w ho;1 c l G w ho;3 GAMMA;1 s l HV;1 c l IOTA;3 I w st;1 c/s l K w ho;1 s
 l L w BAR;3 LAMBDA w st;1 c l tu M;3 N w lf ho;1 s l N w lg r LEG;1 c l O w mi ti;1 c/s l O w
 HORN;3 OI;3 P w ho;1 l YR;1 c/s l TONE TWO;1 c l ESH;1 l re ESH LOOP;1 s l T w PALATAL ho;1 c/s
 l T w ho;1 c l T w rt ho;1 c/s l U w HORN;1 c l us;3 V/Y w ho;1 s l Y w ho;1 c/s l Z w st;1 c l
 EZH;1 c/s l EZH re;1 s l EZH w TAIL;1 l TWO w st;1 c/s l TONE fi;1 l i gl so w st;2 WYNN;2
 DENTAL/LATERAL/ALVEOLAR/rt CLICK;1 c l DZ w ca;3 D w s l Z w ca;1 s l DZ w ca;1 c l LJ;3 L w s l
 J;1 s l LJ;1 c l NJ;3 N w s l J;1 s l NJ;1 c/s l A/I/O/U w ca;3 U w di n m/ac/ca/gr;1 s l tu E;1
 c/s l A w di n m;5 DOT ab n m;3 AE w m;3 G w st;3 G/K w ca;3 O w og;6 n m;3 EZH w ca;1 s l J w
 ca;1 c l DZ;3 D w s l Z;1 s l DZ;1 c/s l G w ac;1 c l HWAIR/WYNN;1 c/s l N w gr;3 A w rn ab n
 ac;3 AE w ac;3 O w st n ac;3 A w d gr;5 i bv;3 E w d gr;5 i bv;3 I w d gr;5 i bv;3 O w d gr;5 i
 bv;3 R w d gr;5 i bv;3 U w d gr;5 i bv;3 S/T w cm be;3 YOGH;3 H w ca;1 c l N w lg r LEG;1 s l D
 w CURL;1 c/s l OU;3 Z w ho;3 A w DOT ab;3 E w ce;3 O w di/ti n m;5 DOT ab;7 n m;3 Y w m;1 s l
 L/N/T w CURL;3 DOTLESS J;3 DB/QP dr;1 c l A/C w st;1 s l C w st;1 c l L w BAR;3 T w dg st;1 s l
 S/Z w SWASH TAIL;1 c/s l gl so;1 c l B w st;3 U BAR;3 tu V;1 c/s l E/J w st;1 c l s Q w ho TAIL;
 1 s l Q w ho TAIL;1 c/s l R/Y w st;1 s l tu A;3 ALPHA;3 tu ALPHA;3 B w ho;3 o O;3 C w CURL;3 D w
 TAIL/ho;3 re E;3 SCHWA;4 w ho;3 o E;3 re o E;6 w ho;3 cs re o E;3 DOTLESS J w st;3 G w ho;3 sc
 G;1 l s c G;1 s l GAMMA;3 RAMS HORN;3 tu H;3 H/HENG w ho;3 I w st;3 IOTA;1 l s c I;1 s l L w mi
 ti;5 BELT;5 rt ho;3 LEZH;3 tu M;5 w lg LEG;3 M w ho;3 N w lf/rt ho;1 l s c N;1 s l BARRED O;1 l
 s c OE;1 s l cs om;3 PHI;3 tu R;5 w lg LEG;6 ho;3 R w lg LEG;5 TAIL/FISHHOOK;3 re R w FISHHOOK;1
 l s c R;4 i R;1 s l S w ho;3 ESH;3 DOTLESS J w st n ho;3 SQUAT re ESH;3 ESH w CURL;3 tu T;3 T w
 rt ho;3 U BAR;3 us;3 V w ho;3 tu V/W/Y;1 l s c Y;1 s l Z w rt ho;5 CURL;3 EZH;4 w CURL;1 l gl
 so;2 PHARYNGEAL VOICED FRICATIVE;2 i gl so;2 STRETCHED C;2 BILABIAL CLICK;2 s c B;1 s l cs o E;1
 l s c G w ho;4 H;1 s l J w CROSSED-TAIL;3 tu K;1 l s c L;1 s l Q w ho;1 l gl so w st;2 re gl so
 w st;1 s l DZ/DEZH dr;3 DZ dr w CURL;3 TS/TESH dr;3 TC dr w CURL;3 FENG/LS/LZ dr;1 l
 BILABIAL/BIDENTAL PERCUSSIVE;1 s l tu H w FISHHOOK;7 n TAIL;MODIFIER l s H;4 w ho;3 J/R;3 tu R;5
 w ho;3 c i R;3 W/Y;2 pr;2 d pr;2 tu cm;2 ao;2 re cm;2 r/lf ha rn;2 gl so;2 re gl so;2 lf/r/UP/dn
 ar;2 cx ae;ca;MODIFIER l v ln;2 m;2 ac/gr ae;2 LOW v ln;3 m;3 gr/ac ae;2 ta cc;2 ha ta cc;2
 CENTRED r/lf ha rn;2 UP/dn tc;2 p/mn g;bv;DOT/rn ab;og;s ti;d ac ae;MODIFIER l RHOTIC ho;2 co
 ae;2 s GAMMA/L/S/X;3 re gl so;2 EXTRA-HIGH/HIGH/MID/LOW/EXTRA-LOW TONE BAR;2 YIN/YANG DEPARTING
 TONE mk;2 VOICING/UNASPIRATED;2 d ao;2 LOW dn/UP/lf/r ar;3 rn;2 mi gr ae;3 d gr/ac ae;2 LOW ti;2
 ra cc;2 BEGIN/END HIGH/LOW TONE;2 SHELF;2 o SHELF;2 LOW lf a;COMBINING gr/ac/cx ae;1
 ti/m/OVERLINE/bv;1 DOT ab;1 di;1 ho/rn ab;1 d ac ae;1 ca;1 v ln ab;1 d v ln ab;2 gr ae;1
 CANDRABINDU;1 i bv;1 tu cm ab;1 cm ab;1 re cm ab;1 cm ab r;1 gr/ac ae be;1 lf/r tc be;1 lf an
 ab;1 HORN;1 lf ha rn be;1 UP/dn tc be;1 p/mn g be;1 PALATALIZED/rt ho be;1 DOT/di/rn/cm be;1
 ce/og;1 v ln be;1 BRIDGE be;1 i d ARCH be;1 ca be;1 cx ae be;1 bv be;1 i bv be;1 ti/m be;1 LOW
 ln;1 d LOW ln;1 ti OVERLAY;1 SHORT/lg st/sl OVERLAY;1 r ha rn be;1 i BRIDGE be;1 sq/SEAGULL be;1
 X ab;1 v ti;1 d OVERLINE;1 gr/ac TONE mk;1 ge PERISPOMENI/KORONIS;2 dl to;2 YPOGEGRAMMENI;1
 BRIDGE ab;1 ea g be;1 d v ln be;1 lf an be;1 NOT ti ab;1 HOMOTHETIC ab;1 ALMOST eq TO ab;1 lf r
 a be;1 uw a be;1 GRAPHEME JOINER;1 r ar ab;1 lf ha rn ab;1 FERMATA;1 X be;1 lf/r ar be;1 r ar n
 UP ar be;2 ha rn ab;1 DOT ab r;1 as be;1 d rn be;1 ZIGZAG ab;1 d bv be;2 bv/m;2 m be;2 ti;2 i
 bv;2 rw a be;1 la s l A/E/I/O/U/C/D/H/M/R/T/V/X;ge c/s l HETA;3 ARCHAIC SAMPI;1 nm g;1 lo nm g;1
 c/s l PAMPHYLIAN DIGAMMA"),
   (0x37A, "ge YPOGEGRAMMENI;1 s re/DOTTED lu sg sy;2 re DOTTED lu sg sy;1 qu mk;1 c l YOT"),
   (0x384, "ge to;1 dl to;1 c l ALPHA w to;1 ANO TELEIA;1 c l ep/ETA/IOTA w to"),
   (0x38C, "ge c l OMICRON w to"),
   (0x38E, "ge c l us/om w to;1 s l IOTA w dl n to;1 c l ALPHA;3
 BETA/GAMMA/DELTA/ep/ZETA/ETA/THETA/IOTA/KAPPA/LAMDA/MU/NU/XI/OMICRON/PI/RHO"),
   (0x3A3, "ge c l sg/TAU/us/PHI/CHI/PSI/om;3 IOTA/us w dl;1 s l ALPHA/ep/ETA/IOTA w to;3 us w dl n
 to;3 ALPHA;3 BETA/GAMMA/DELTA/ep/ZETA/ETA/THETA/IOTA/KAPPA/LAMDA/MU/NU/XI/OMICRON/PI/RHO;3 FINAL
 sg;3 sg/TAU/us/PHI/CHI/PSI/om;3 IOTA/us w dl;3 OMICRON/us/om w to;1 c KAI sy;1 BETA/THETA sy;1
 us w ho sy;3 ac/di n ho sy;1 PHI/PI/KAI sy;1 l ARCHAIC KOPPA;1 s l ARCHAIC KOPPA;1 l STIGMA;1 s
 l STIGMA;1 l DIGAMMA;1 s l DIGAMMA;1 l KOPPA;1 s l KOPPA;1 l SAMPI;1 s l SAMPI;COPTIC c/s l
 SHEI/FEI/KHEI/HORI/GANGIA/SHIMA/DEI;ge KAPPA/RHO sy;1 lu sg sy;1 l YOT;1 c THETA sy;1 lu ep sy;1
 re lu ep sy;1 c/s l SHO;1 c lu sg sy;1 c/s l SAN;1 RHO w st sy;1 c re/DOTTED lu sg sy;2 re
 DOTTED lu sg sy;CYRILLIC c l IE w gr;3 IO/DJE/GJE;3 UKRAINIAN IE;3 DZE;3 BYELORUSSIAN-UKRAINIAN
 I;3 YI/JE/LJE/NJE/TSHE/KJE;3 I w gr;3 SHORT U;3 DZHE/A/BE/VE/GHE/DE/IE/ZHE/ZE/I;3 SHORT I;3
 KA/EL/EM/EN/O/PE/ER/ES/TE/U/EF/HA/TSE/CHE/SHA/SHCHA;3 HARD g;3 YERU;3 SOFT g;3 E/YU/YA;1 s l
 A/BE/VE/GHE/DE/IE/ZHE/ZE/I;3 SHORT I;3 KA/EL/EM/EN/O/PE/ER/ES/TE/U/EF/HA/TSE/CHE/SHA/SHCHA;3
 HARD g;3 YERU;3 SOFT g;3 E/YU/YA;3 IE w gr;3 IO/DJE/GJE;3 UKRAINIAN IE;3 DZE;3
 BYELORUSSIAN-UKRAINIAN I;3 YI/JE/LJE/NJE/TSHE/KJE;3 I w gr;3 SHORT U;3 DZHE;1 c/s l om/YAT;3
 IOTIFIED E;3 LITTLE YUS;3 IOTIFIED LITTLE YUS;3 BIG YUS;3 IOTIFIED BIG YUS;3
 KSI/PSI/FITA/IZHITSA;3 IZHITSA w d gr ae;3 UK;3 ROUND om;3 om w TITLO;3 OT/KOPPA;1 THOUSANDS g;
 COMBINING CYRILLIC TITLO/PALATALIZATION;2 DASIA/PSILI PNEUMATA;2 POKRYTIE;2 hu THOUSANDS g;2
 MILLIONS g;CYRILLIC c/s l SHORT I w TAIL;3 SEMISOFT g;3 ER w TICK;3 GHE w UPTURN/st;5 mi ho;3
 ZHE/ZE/KA w de;3 KA w v st;5 st;3 BASHKIR KA;3 EN w de;2 lb EN GHE;2 l PE w mi ho;3 ABKHASIAN
 HA;3 ES/TE w de;3 STRAIGHT U;5 w st;3 HA w de;2 lb TE TSE;2 l CHE w de;5 v st;3 SHHA;3 ABKHASIAN
 CHE;5 w de;1 l PALOCHKA;1 c/s l ZHE w bv;3 KA w ho;3 EL w TAIL;3 EN w ho/TAIL;3 KHAKASSIAN CHE;3
 EM w TAIL;1 s l PALOCHKA;1 c/s l A w bv/di;2 lb A IE;2 l IE w bv;3 SCHWA;3 SCHWA/ZHE/ZE w di;3
 ABKHASIAN DZE;3 I w m;3 I/O w di;3 BARRED O;5 w di;3 E w di;3 U w m/di;5 d ac;3 CHE w di;3 GHE w
 de;3 YERU w di;3 GHE w st n ho;3 HA w ho/st"),
   (0x1E00, "la c/s l A w rn be;3 B w DOT ab;5 DOT/ln be;3 C w ce n ac;3 D w DOT ab;5 DOT/ln be;5
 ce;5 cx be;3 E w m n gr/ac;5 cx/ti be;5 ce n bv;3 F w DOT ab;3 G w m;3 H w DOT ab/be;5 di/ce;5
 bv be;3 I w ti be;5 di n ac;3 K w ac;5 DOT/ln be;3 L w DOT be;7 n m;5 ln/cx be;3 M w ac;5 DOT
 ab/be;3 N w DOT ab;5 DOT/ln/cx be;3 O w ti n ac/di;5 m n gr/ac;3 P w ac;5 DOT ab;3 R w DOT
 ab/be;6 be n m;5 ln be;3 S w DOT ab/be;5 ac/ca n DOT ab;5 DOT be n DOT ab;3 T w DOT ab;5
 DOT/ln/cx be;3 U w di/ti/cx be;5 ti n ac;5 m n di;3 V w ti;5 DOT be;3 W w gr/ac/di;5 DOT ab/be;3
 X w DOT ab;5 di;3 Y w DOT ab;3 Z w cx;5 DOT/ln be;1 s l H w ln be;3 T w di;3 W/Y w rn ab;3 A w r
 ha rn;3 lg S w DOT ab;6 dg/HIGH st;1 c l SHARP S;1 s l DELTA;1 c/s l A w DOT be;5 ho ab;5 cx n
 ac/gr;7 ho ab;7 ti;7 DOT be;5 bv n ac/gr;7 ho ab;7 ti;7 DOT be;3 E w DOT be;5 ho ab;5 ti;5 cx n
 ac/gr;7 ho ab;7 ti;7 DOT be;3 I w ho ab;3 I/O w DOT be;3 O w ho ab;5 cx n ac/gr;7 ho ab;7 ti;7
 DOT be;5 HORN n ac/gr;7 ho ab;7 ti;7 DOT be;3 U w DOT be;5 ho ab;5 HORN n ac/gr;7 ho ab;7 ti;7
 DOT be;3 Y w gr;5 DOT be;5 ho ab;5 ti;3 MIDDLE-WELSH LL/V;3 Y w LOOP")]

end TypeStub.Text.CharacterName
