import TypeStub.Text.Ranges
/-!
# Compatibility composition of identifiers

Two spellings of one identifier are the same name: names are compared after their characters are
replaced by their compatibility decompositions, the marks behind each letter are put into
canonical order, and letters and marks are composed again. The tables hold what can occur in an
identifier.
-/

namespace TypeStub.Text

/-- A run of code points `first … last` that map to a row of texts: the first of them maps to
`image`, and a run of several maps to consecutive single code points. -/
structure MappedRange where
  range : CodeRange
  image : List Nat
  composes : Bool

/-- Reads an entry such as `AA=61`, `2=66.69`, `8-19=41` or `7=41/61+300/301`, which has an image for
each choice of parts. Images with `+` are composed again. An entry with nothing but images is about the
next code points. Ideographs are images as they are. -/
def MappedRange.read (behind : Nat) (text : List Char) : List MappedRange :=
  let (codes, image) := match splitAt '=' text with
    | [codes, image] => (codes, image)
    | _ => (['1'], text)
  let range := CodeRange.read behind codes
  let composes := image.contains '+'
  let parts := splitAt (if composes then '+' else '.') image
  let images := if image.all (0x3400 ≤ ·.toNat) then image.map ([·.toNat])
    else choices (parts.map fun part => (splitAt '/' part).map (ofDigits 16))
  images.zipIdx.map fun (image, i) =>
    { range := { first := range.first + i, last := range.last + i }, image, composes }

def readMapped : String → List MappedRange :=
  readEntries (·.range) MappedRange.read

def decompositionTable : List MappedRange := readMapped
 "AA=61 B=3BC 5=6F 6=41+300/301/302/303/308/30A 2=43+327 45+300/301/302/308 49+300/301/302/308
 2=4E+303 4F+300/301/302/303/308 3=55+300/301/302/308 59+301 3=61+300/301/302/303/308/30A
 2=63+327 65+300/301/302/308 69+300/301/302/308 2=6E+303 6F+300/301/302/303/308
 3=75+300/301/302/308 79+301 2=79+308 41/61+304/306/328 43/63+301/302/307/30C 44/64+30C
 3=45/65+304/306/307/328/30C 47/67+302/306/307/327 48/68+302 3=49/69+303/304/306/328 49+307
 2=49.4A 69.6A 4A/6A+302 4B/6B+327 2=4C/6C+301/327/30C 4C/6C.B7 3=4E/6E+301/327/30C 2BC.6E
 3=4F/6F+304/306/30B 3=52/72+301/327/30C 53/73+301/302/327/30C 54/74+327/30C
 3=55/75+303/304/306/30A/30B/328 57/77/59/79+302 59+308 5A/7A+301/307/30C 73 21=4F/6F+31B
 E=55/75+31B 14=44.5A.30C 44/64.7A.30C 4C.4A 4C/6C.6A 4E.4A 4E/6E.6A 41/61/49/69/4F/6F/55/75+30C
 55/75+308+304/301/30C/300 2=41/61+308/307+304 C6/E6+304 3=47/67/4B/6B+30C 4F/6F+328
 4F/6F+328+304 1B7/292/6A+30C 44.5A 44/64.7A 47/67+301 3=4E/6E+300 41/61+30A+301 C6/E6/D8/F8+301
 41/61+30F/311 45/65+30F/311 49/69+30F/311 4F/6F+30F/311 52/72+30F/311 55/75+30F/311
 53/73/54/74+326 3=48/68+30C 7=41/61+307 45/65+327 4F/6F+308/303+304 4F/6F+307 4F/6F+307+304
 59/79+304 7D=68 266 6A 72 279 27B 281 77 79 28=263 6C 73 78 295 5C=300 301 2=313 308.301 30=2B9
 12=391+301 B7 395/397/399+301 2=39F+301 2=3A5/3A9+301 3B9+308+301 1A=399/3A5+308
 3B1/3B5/3B7/3B9+301 3C5+308+301 1A=3B9/3C5+308 3BF/3C5/3C9+301 2=3B2 3B8 3A5 3A5.301/308 3C6 3C0
 1A=3BA 3C1 3C2 2=398 3B5 4=3A3 7=415+300/308 2=413+301 4=406+308 5=41A+301 418+300 423+306
 B=418+306 20=438+306 17=435+300/308 2=433+301 4=456+308 5=43A+301 438+300 443+306 18=474/475+30F
 4A=416/436+306 E=410/430+306/308 3=415/435+306 3=4D8/4D9/416/436/417/437+308 3=418/438+304/308
 41E/43E+308 3=4E8/4E9/42D/44D+308 423/443+304/308/30B 427/447+308 3=42B/44B+308 8E=565.582
 9B=627+653 627/648+654 627+655 64A+654 4F=627/648/6C7/64A.674 48=6D5+654 2=6C1+654 11=6D2+654
 256=928+93C 8=930+93C 3=933+93C 24=915/916/917/91C/921/922/92B/92F.93C 6C=9C7+9BE/9D7
 10=9A1/9A2.9BC 2=9AF.9BC 54=A32.A3C 3=A38.A3C 23=A16/A17/A1C.A3C 3=A2B.A3C EA=B47+B56
 3=B47+B3E/B57 10=B21/B22.B3C 37=B92+BD7 36=BC6/BC7+BBE BC6+BD7 7C=C46+C56 78=CBF+CD5
 7=CC6+CD5/CD6 2=CC6+CC2 CC6+CC2+CD5 7F=D46/D47+D3E D46+D57 8E=DD9+DCA 2=DD9+DCF DD9+DCF+DCA
 DD9+DDF 55=E4D.E32 80=ECD.EB2 29=EAB.E99/EA1 66=F42.FB7 A=F4C.FB7 5=F51.FB7 5=F56.FB7 5=F5B.FB7
 D=F40.FB5 A=F71.F72 2=F71.F74 FB2.F80 FB2.F71.F80 FB3.F80 FB3.F71.F80 8=F71.F80 12=F92.FB7
 A=F9C.FB7 5=FA1.FB7 5=FA6.FB7 5=FAB.FB7 D=F90.FB5 6D=1025+102E D6=10DC A0A=1B05+1B35 2=1B07+1B35
 2=1B09+1B35 2=1B0B+1B35 2=1B0D+1B35 4=1B11+1B35 29=1B3A+1B35 2=1B3C+1B35 3=1B3E/1B3F+1B35
 2=1B42+1B35 1E9=41 C6 42 2=44 45 18E 1-7=47 2=4F 222 50 52 54 55 57 61 250 251 1D02 62 64 65 259
 25B 25C 67 2=6B 6D 14B 6F 254 1D16 1D17 70 74 75 1D1D 26F 76 1D25 3B2 3B3 3B4 3C6 3C7 69 72 75
 76 3B2 3B3 3C1 3C6 3C7 E=43D 23=252 63 255 F0 25C 66 25F 261 265 268 269 26A 1D7B 29D 26D 1D85
 29F 271 270 1-3=272 278 282 283 1AB 289 28A 1D1C 28B 28C 7A 290 291 292 3B8 41=41/61+325
 42/62+307/323/331 43/63+327+301 44/64+307/323/331/327/32D 45/65+304+300/301 45/65+32D/330
 45/65+327+306 46/66+307 47/67+304 48/68+307/323/308/327/32E 49/69+330 49/69+308+301
 4B/6B+301/323/331 4C/6C+323 4C/6C+323+304 4C/6C+331/32D 4D/6D+301/307/323 4E/6E+307/323/331/32D
 4F/6F+303+301/308 4F/6F+304+300/301 50/70+301/307 52/72+307/323 52/72+323+304 52/72+331
 53/73+307/323 53/73+301/30C/323+307 54/74+307/323/331/32D 55/75+324/330/32D 55/75+303+301
 55/75+304+308 56/76+303/323 57/77+300/301/308/307/323 58/78+307/308 59/79+307 5A/7A+302/323/331
 68+331 74+308 77/79+30A 61.2BE 73.307 5=41/61+323/309 41/61+302+301/300/309/303 41/61+323+302
 41/61+306+301/300/309/303 41/61+323+306 45/65+323/309/303 45/65+302+301/300/309/303
 45/65+323+302 49/69+309/323 4F/6F+323/309 4F/6F+302+301/300/309/303 4F/6F+323+302
 4F/6F+31B+301/300/309/303/323 55/75+323/309 55/75+31B+301/300/309/303/323 59/79+300/323/309/303
 7=3B1+313/314 3B1+313/314+300/301/342 391+313/314 391+313/314+300/301/342 3B5+313/314
 3B5+313/314+300/301 3=395+313/314 395+313/314+300/301 3=3B7+313/314 3B7+313/314+300/301/342
 397+313/314 397+313/314+300/301/342 3B9+313/314 3B9+313/314+300/301/342 399+313/314
 399+313/314+300/301/342 3BF+313/314 3BF+313/314+300/301 3=39F+313/314 39F+313/314+300/301
 3=3C5+313/314 3C5+313/314+300/301/342 2=3A5+314 2=3A5+314+300 2=3A5+314+301 2=3A5+314+342
 3C9+313/314 3C9+313/314+300/301/342 3A9+313/314 3A9+313/314+300/301/342 3B1+300 3B1.301 3B5+300
 3B5.301 3B7+300 3B7.301 3B9+300 3B9.301 3BF+300 3BF.301 3C5+300 3C5.301 3C9+300 3C9.301
 3=3B1+313/314+345 3B1+313/314+300/301/342+345 391+313/314+345 391+313/314+300/301/342+345
 3B7+313/314+345 3B7+313/314+300/301/342+345 397+313/314+345 397+313/314+300/301/342+345
 3C9+313/314+345 3C9+313/314+300/301/342+345 3A9+313/314+345 3A9+313/314+300/301/342+345
 3B1+306/304 3B1+300+345 3B1+345 3B1+301+345 2=3B1+342 3B1+342+345 391+306/304/300 391.301
 391+345 2=3B9 4=3B7+300+345 3B7+345 3B7+301+345 2=3B7+342 3B7+342+345 395+300 395.301 397+300
 397.301 397+345 4=3B9+306/304 3B9+308+300 3B9.308.301 3=3B9+342 3B9+308+342 399+306/304/300
 399.301 5=3C5+306/304 3C5+308+300 3C5.308.301 3C1+313/314 3C5+342 3C5+308+342 3A5+306/304/300
 3A5.301 3A1+314 6=3C9+300+345 3C9+345 3C9+301+345 2=3C9+342 3C9+342+345 39F+300 39F.301 3A9+300
 3A9.301 3A9+345 75=69 E=6E 11=61 65 6F 78 259 68 1-3=6B 70 73 74 66=43 5=190 3=67 48 48 48 68
 127 49 49 4C 6C 2=4E 4-2=50 52 52 7=5A 2=3A9 2=5A 2=4B 41.30A 42 43 2=65 45 46 2=4D 6F 1-3=5D0
 69 3=3C0 3B3 393 3A0 6=44 64 65 69 6A 17=49 49.49 49.49.49 49.56 56 56.49 56.49.49 56.49.49.49
 49.58 58 58.49 58.49.49 4C 43 44 4D 69 69.69 69.69.69 69.76 76 76.69 76.69.69 76.69.69.69 69.78
 78 78.69 78.69.69 6C 63 64 6D AFD=6A 56 F2=2D61 2C9=十卄卅 12=304B+3099 2=304D+3099 2=304F+3099
 2=3051+3099 2=3053+3099 2=3055+3099 2=3057+3099 2=3059+3099 2=305B+3099 2=305D+3099 2=305F+3099
 2=3061+3099 3=3064+3099 2=3066+3099 2=3068+3099 7=306F+3099/309A 2=3072+3099/309A
 2=3075+3099/309A 2=3078+3099/309A 2=307B+3099/309A 17=3046+3099 A=309D+3099 3088.308A
 D=30AB+3099 2=30AD+3099 2=30AF+3099 2=30B1+3099 2=30B3+3099 2=30B5+3099 2=30B7+3099 2=30B9+3099
 2=30BB+3099 2=30BD+3099 2=30BF+3099 2=30C1+3099 3=30C4+3099 2=30C6+3099 2=30C8+3099
 7=30CF+3099/309A 2=30D2+3099/309A 2=30D5+3099/309A 2=30D8+3099/309A 2=30DB+3099/309A
 17=30A6+3099 3=30EF/30F0/30F1/30F2+3099 4=30FD+3099 30B3.30C8 32=1100 1101 11AA 1102 11AC 11AD
 1103 1104 1105 1-5=11B0 111A 1106 1107 1108 1121 1-9=1109 1-14=1161 1160 1114 1115 11C7 11C8
 11CC 11CE 11D3 11D7 11D9 111C 11DD 11DF 111D 111E 1120 1122 1123 1127 1129 1-4=112B 1132 1136
 1140 1147 114C 11F1 11F2 1157 1158 1159 1184 1185 1188 1191 1192 1194 119E 11A1 750E=44A 44C
 D3=A76F 82=43 46 51 4=126 153 363=A727 AB37 26B AB52 A=28D 4D97=豈更車賈滑串句龜龜契金喇奈懶癩羅蘿螺裸邏樂洛烙珞落酪駱亂卵欄爛蘭
 鸞嵐濫藍襤拉臘蠟廊朗浪狼郎來冷勞擄櫓爐盧老蘆虜路露魯鷺碌祿綠菉錄鹿論壟弄籠聾牢磊賂雷壘屢樓淚漏累縷陋勒肋凜凌稜綾菱陵讀拏樂諾丹寧怒率異北磻便復不泌數索參塞省葉說殺辰沈拾若掠略亮兩凉梁糧良諒量勵
 呂女廬旅濾礪閭驪麗黎力曆歷轢年憐戀撚漣煉璉秊練聯輦蓮連鍊列劣咽烈裂說廉念捻殮簾獵令囹寧嶺怜玲瑩羚聆鈴零靈領例禮醴隸惡了僚寮尿料樂燎療蓼遼龍暈阮劉杻柳流溜琉留硫紐類六戮陸倫崙淪輪律慄栗率隆利吏履
 易李梨泥理痢罹裏裡里離匿溺吝燐璘藺隣鱗麟林淋臨立笠粒狀炙識什茶刺切度拓糖宅洞暴輻行降見廓兀嗀 3=塚 2=晴 3=凞猪益礼神祥福靖精羽 2=蘒 2=諸 3=逸都 4=飯飼館鶴郞隷侮僧免勉勤卑喝
 嘆器塀墨層屮悔慨憎懲敏既暑梅海渚漢煮爫琢碑社祉祈祐祖祝禍禎穀突節練縉繁署者臭艹艹著褐視謁謹賓贈辶逸難響頻恵𤋮舘 3=並况全侀充冀勇勺喝啕喙嗢塚墳奄奔婢嬨廒廙彩徭惘慎愈憎慠懲戴揄搜摒敖晴朗望杖歹
 殺流滛滋漢瀞煮瞧爵犯猪瑱甆画瘝瘟益盛直睊着磌窱節类絛練缾者荒華蝹襁覆視調諸請謁諾諭謹變贈輸遲醙鉶陼難靖韛響頋頻鬒龜𢡊𢡄𣏕㮝䀘䀹𥉉𥳐𧻓齃龎 27=66.66/69/6C 66.66.69/6C
 73.74 73.74 D=574.576/565/56B 57E.576 574.56D 6=5D9.5B4 2=5F2.5B7 5E2 5D0 5D3 5D4 5DB 5DC 5DD
 5E8 5EA 2=5E9.5C1/5C2 5E9.5BC.5C1/5C2 5D0.5B7/5B8 5D0/5D1/5D2/5D3/5D4/5D5/5D6.5BC
 2=5D8/5D9/5DA/5DB/5DC.5BC 2=5DE.5BC 2=5E0/5E1.5BC 2=5E3/5E4.5BC 2=5E6/5E7/5E8/5E9/5EA.5BC
 5D5.5B9 5D1/5DB/5E4.5BF 5D0.5DC 671 671 67B 67B 67B 67B 67E 67E 67E 67E 680 680 680 680 67A 67A
 67A 67A 67F 67F 67F 67F 679 679 679 679 6A4 6A4 6A4 6A4 6A6 6A6 6A6 6A6 684 684 684 684 683 683
 683 683 686 686 686 686 687 687 687 687 68D 68D 68C 68C 68E 68E 688 688 698 698 691 691 6A9 6A9
 6A9 6A9 6AF 6AF 6AF 6AF 6B3 6B3 6B3 6B3 6B1 6B1 6B1 6B1 6BA 6BA 6BB 6BB 6BB 6BB 6D5.654 6D5.654
 6C1 6C1 6C1 6C1 6BE 6BE 6BE 6BE 6D2 6D2 6D2.654 6D2.654 22=6AD 6AD 6AD 6AD 6C7 6C7 6C6 6C6 6C8
 6C8 6C7.674 6CB 6CB 6C5 6C5 6C9 6C9 6D0 6D0 6D0 6D0 649 649
 64A.654.627/627/6D5/6D5/648/648/6C7/6C7/6C6/6C6/6C8/6C8/6D0/6D0/6D0/649/649/649 6CC 6CC 6CC 6CC
 64A.654.62C/62D/645/649/64A 628.62C/62D/62E/645/649/64A 62A.62C/62D/62E/645/649/64A
 62B.62C/645/649/64A 62C.62D/645 62D.62C/645 62E.62C/62D/645 633.62C/62D/62E/645 635.62D/645
 636.62C/62D/62E/645 637.62D 637/638.645 639.62C/645 63A.62C/645 641.62C/62D/62E/645/649/64A
 642.62D/645/649/64A 643.627/62C/62D/62E/644/645/649/64A 644.62C/62D/62E/645/649/64A
 645.62C/62D/62E/645/649/64A 646.62C/62D/62E/645/649/64A 647.62C/645/649/64A
 64A.62C/62D/62E/645/649/64A 630/631/649.670 7=64A.654.631/632/645/646/649/64A
 628.631/632/645/646/649/64A 62A.631/632/645/646/649/64A 62B.631/632/645/646/649/64A 641.649/64A
 642.649/64A 643.627/644/645/649/64A 644.645/649/64A 645.627/645 646.631/632/645/646/649/64A
 649.670 64A.631/632/645/646/649/64A 64A.654.62C/62D/62E/645/647 628.62C/62D/62E/645/647
 62A.62C/62D/62E/645/647 62B.645 62C.62D/645 62D.62C/645 62E.62C/645 633.62C/62D/62E/645
 635.62D/62E/645 636.62C/62D/62E/645 637.62D 638.645 639.62C/645 63A.62C/645 641.62C/62D/62E/645
 642.62D/645 643.62C/62D/62E/644/645 644.62C/62D/62E/645/647 645.62C/62D/62E/645
 646.62C/62D/62E/645/647 647.62C/645/670 64A.62C/62D/62E/645/647 64A.654.645/647 628.645/647
 62A.645/647 62B.645/647 633.645/647 634.645/647 643.644 643/644.645 646.645/647 64A.645/647
 640.64E/64F/650.651 637.649/64A 639.649/64A 63A.649/64A 633.649/64A 634.649/64A 62D.649/64A
 62C.649/64A 62E.649/64A 635.649/64A 636.649/64A 634.62C/62D/62E/645 634/633/635/636.631
 637.649/64A 639.649/64A 63A.649/64A 633.649/64A 634.649/64A 62D.649/64A 62C.649/64A 62E.649/64A
 635.649/64A 636.649/64A 634.62C/62D/62E/645 634/633/635/636.631 634.62C/62D/62E/645 633/634.647
 637.645 633.62C/62D/62E 634.62C/62D/62E 637/638.645 627.64B 627.64B 13=62A.62C.645
 62A.62D.62C/62C/645 62A.62E.645 62A.645.62C/62D/62E 62C.645.62D 62C.645.62D 62D.645.64A/649
 633.62D.62C 633.62C.62D/649 633.645.62D/62D/62C/645/645 635.62D.62D 635.62D.62D 635.645.645
 634.62D.645 634.62D.645 634.62C.64A 634.645.62E/62E/645/645 636.62D.649 636.62E.645 636.62E.645
 637.645.62D/62D/645/64A 639.62C.645 639.645.645/645/649 63A.645.645/64A/649 641.62E.645
 641.62E.645 642.645.62D/645 644.62D.645/64A/649 644.62C.62C 644.62C.62C 644.62E.645 644.62E.645
 644.645.62D 644.645.62D 645.62D.62C/645/64A 645.62C.62D/645 645.62E.62C/645 3=645.62C.62E
 647.645.62C/645 646.62D.645/649 646.62C.645/645/649 646.645.64A/649 64A.645.645 64A.645.645
 628.62E.64A 62A.62C.64A/649 62A.62E.64A/649 62A.645.64A/649 62C.645.64A 62C.62D/645.649
 633.62E.649 635/634/636.62D.64A 644.62C/645.64A 64A.62D/62C.64A 64A/645/642.645.64A 646.62D.64A
 642.645.62D 644.62D.645 639/643.645.64A 646.62C.62D 645.62E.64A 644.62C.645 643.645.645
 644.62C.645 646.62C.62D 62C.62D.64A 62D/645.62C.64A 641.645.64A 628.62D.64A 643.645.645
 639.62C.645 635.645.645 633.62E.64A 646.62C.64A 29=635/642.644.6D2 627.644.644.647
 627.643.628.631 645.62D.645.62F 635.644.639.645 631.633.648.644 639.644.64A.647 648.633.644.645
 635.644.649 3A=5F 5F 19=5F 5F 5F 22=640.64B 6=640.64E 2=640.64F 2=640.650 2=640.651 2=640.652
 621 627.653/653/654 627/648/648.654 627.655 627.655 64A.654 64A.654 64A.654 64A.654 627 627 628
 628 628 628 629 629 62A 62A 62A 62A 62B 62B 62B 62B 62C 62C 62C 62C 62D 62D 62D 62D 62E 62E 62E
 62E 62F 62F 630 630 631 631 632 632 633 633 633 633 634 634 634 634 635 635 635 635 636 636 636
 636 637 637 637 637 638 638 638 638 639 639 639 639 63A 63A 63A 63A 641 641 641 641 642 642 642
 642 643 643 643 643 644 644 644 644 645 645 645 645 646 646 646 646 647 647 647 647 648 648 649
 649 64A 64A 64A 64A 644.627.653/653/654/654/655/655 644.627 644.627 14-9=30 8-19=41 5=5F 2-19=61
 C=30F2 30A1 30A3 30A5 30A7 30A9 30E3 30E5 30E7 30C3 30FC 30A2 30A4 30A6 30A8 30AA 30AB 30AD 30AF
 30B1 30B3 30B5 30B7 30B9 30BB 30BD 30BF 30C1 30C4 30C6 30C8 1-5=30CA 30D2 30D5 30D8 30DB
 1-4=30DE 30E4 30E6 1-5=30E8 30EF 30F3 3099 309A 1160 1100 1101 11AA 1102 11AC 11AD 1103 1104
 1105 1-5=11B0 111A 1106 1107 1108 1121 1-9=1109 4-5=1161 3-5=1167 3-5=116D 3-2=1173 7A5=2D0 2D1
 E6 299 253 2=2A3 AB66 2A5 2A4 256 257 1D91 258 25E 2A9 264 262 260 29B 127 29C 267 284 2AA 2AB
 26C 1DF04 A78E 26E 1DF05 28E 1DF06 F8 276 277 71 27A 1DF08 27D 27E 280 2A8 2A6 AB67 2A7 288 2C71
 2=28F 2A1 2A2 298 1C0 1C1 1C2 1DF0A 1DF1E 8E0=11099+110BA 2=1109B+110BA F=110A5+110BA
 83=11131/11132+11127 21C=11347+1133E/11357 16F=114B9+114BA/114B0 2=114B9+114BD
 FC=115B8/115B9+115AF 37D=11935+11930 BAC8-19=41 1-19=61 1-19=41 1-6=61 2-11=69 1-19=41 1-19=61
 41 2=43 44 3=47 3=4A 4B 3-3=4E 2-7=53 1-3=61 2=66 2-6=68 2-A=70 1-19=41 1-19=61 41 42 2-3=44
 3-7=4A 2-6=53 2-19=61 41 42 2-3=44 2-4=49 2=4F 4-6=53 2-19=61 1-19=41 1-19=61 1-19=41 1-19=61
 1-19=41 1-19=61 1-19=41 1-19=61 1-19=41 1-19=61 1-19=41 1-19=61 131 237 3-10=391 398 1-6=3A3
 2-18=3B1 2=3B5 3B8 3BA 3C6 3C1 3C0 1-10=391 398 1-6=3A3 2-18=3B1 2=3B5 3B8 3BA 3C6 3C1 3C0
 1-10=391 398 1-6=3A3 2-18=3B1 2=3B5 3B8 3BA 3C6 3C1 3C0 1-10=391 398 1-6=3A3 2-18=3B1 2=3B5 3B8
 3BA 3C6 3C1 3C0 1-10=391 398 1-6=3A3 2-18=3B1 2=3B5 3B8 3BA 3C6 3C1 3C0 3DC 3DD 3-9=30 1-9=30
 1-9=30 1-9=30 1-9=30 1601=627 628 62C 62F 2=648 632 62D 637 64A 1-3=643 633 639 641 635 642 631
 634 62A 62B 62E 630 636 638 63A 66E 6BA 6A1 66F 2=628 62C 2=647 3=62D 2=64A 1-3=643 633 639 641
 635 642 2=634 62A 62B 62E 2=636 2=63A 7=62C 5=62D 2=64A 2=644 2=646 633 639 2=635 642 2=634
 3=62E 2=636 2=63A 2=6BA 2=66F 2=628 62C 2=647 3=62D 637 64A 643 2=645 646 633 639 641 635 642
 2=634 62A 62B 62E 2=636 638 63A 66E 2=6A1 2=627 628 62C 62F 647 648 632 62D 637 64A 2-2=644 633
 639 641 635 642 631 634 62A 62B 62E 630 636 638 63A 6=628 62C 62F 2=648 632 62D 637 64A 2-2=644
 633 639 641 635 642 631 634 62A 62B 62E 630 636 638 63A D35-9=30 FC07=丽丸乁𠄢你侮侻倂偺備僧像㒞𠘺免兔兤具𠔜㒹內再𠕋冗冤仌
 冬况𩇟凵刃㓟刻剆割剷㔕勇勉勤勺包匆北卉卑博即卽卿卿卿𠨬灰及叟𠭣叫叱吆咞吸呈周咢哶唐啓啣善善喙喫喳嗂圖嘆圗噑噴切壮城埴堍型堲報墬𡓤売壷夆多夢奢𡚨𡛪姬娛娧姘婦㛮㛼嬈嬾嬾𡧈寃寘寧寳𡬘寿将当尢㞁屠屮峀
 岍𡷤嵃𡷦嵮嵫嵼巡巢㠯巽帨帽幩㡢𢆃㡼庰庳庶廊𪎒廾𢌱𢌱舁弢弢㣇𣊸𦇚形彫㣣徚忍志忹悁㤺㤜悔𢛔惇慈慌慎慌慺憎憲憤憯懞懲懶成戛扝抱拔捐𢬌挽拼捨掃揤𢯱搢揅掩㨮摩摾撝摷㩬敏敬𣀊旣書晉㬙暑㬈㫤冒冕最暜肭䏙朗望
 朡杞杓𣏃㭉柺枅桒梅𣑭梎栟椔㮝楂榣槪檨𣚣櫛㰘次𣢧歔㱎歲殟殺殻𣪍𡴋𣫺汎𣲼沿泍汧洖派海流浩浸涅𣴞洴港湮㴳滋滇𣻑淹潮𣽞𣾎濆瀹瀞瀛㶖灊災灷炭𠔥煅𤉣熜𤎫爨爵牐𤘈犀犕𤜵𤠔獺王㺬玥㺸㺸瑇瑜瑱璅瓊㼛甤𤰶甾𤲒異𢆟
 瘐𤾡𤾸𥁄㿼䀈直𥃳𥃲𥄙𥄳眞真真睊䀹瞋䁆䂖𥐝硎碌磌䃣𥘦祖𥚚𥛅福秫䄯穀穊穏𥥼𥪧𥪧竮䈂𥮫篆築䈧𥲀糒䊠糨糣紀𥾆絣䌁緇縂繅䌴𦈨𦉇䍙𦋙罺𦌾羕翺者𦓚𦔣聠𦖨聰𣍟䏕育脃䐋脾媵𦞧𦞵𣎓𣎜舁舄辞䑫芑芋芝劳花芳芽苦𦬼若茝
 荣莭茣莽菧著荓菊菌菜𦰶𦵫𦳕䔫蓱蓳蔖𧏊蕤𦼬䕝䕡𦾱𧃒䕫虐虜虧虩蚩蚈蜎蛢蝹蜨蝫螆䗗蟡蠁䗹衠衣𧙧裗裞䘵裺㒻𧢮𧥦䚾䛇誠諭變豕𧲨貫賁贛起𧼯𠠄跋趼跰𠣞軔輸𨗒𨗭邔郱鄑𨜮鄛鈸鋗鋘鉼鏹鐕𨯺開䦕閷𨵷䧦雃嶲霣𩅅𩈚䩮䩶
 韠𩐊䪲𩒖頋頋頩𩖶飢䬳餩馧駂駾䯎𩬰鬒鱀鳽䳎䳭鵧𪃎䳸𪄅𪈎𪊑麻䵖黹黾鼅鼏鼖鼻𪘀"

def combiningTable : List MappedRange := readMapped
 "300-14=E6 E8 1-3=DC E8 D8 1-4=DC 1-1=CA 1-3=DC 1-1=CA 1-A=DC 1-4=1 1-3=DC 1-7=E6 F0 E6 1-2=DC
 1-2=E6 1-1=DC 2-2=E6 1-3=DC E6 E8 1-1=DC E6 E9 1-1=EA E9 1-1=EA E9 1-C=E6 114-4=E6 10A=DC 1-3=E6
 DC 1-2=E6 DE DC 1-5=E6 1-5=DC 1-1=E6 DC 1-1=E6 DE E4 E6 A B C D E F 10 11 12 1-1=13 14 15 16
 2=17 2=18 19 2=E6 DC 2=12 49-7=E6 1E 1F 20 31=1B 1C 1D 1E 1F 20 21 22 1-1=E6 1-1=DC 1-4=E6 DC
 1-1=E6 DC 11=23 66-6=E6 3-3=E6 DC E6 3-1=E6 2=DC 1-1=E6 DC 24=24 1F=E6 DC 1-1=E6 DC 1-1=E6
 1-2=DC E6 1-1=DC E6 DC 1-2=E6 DC E6 DC E6 DC E6 DC 1-1=E6 A1-6=E6 DC E6 A=DC 19-3=E6 2-8=E6
 2-2=E6 2-4=E6 2C-2=DC 3D=E6 1-2=DC 1-3=E6 2B-4=E6 1-4=DC 1-D=E6 2=DC 1-1=E6 DC 1-1=E6 DC 1-2=E6
 1-2=DC 1B 1C 1D 1-2=E6 DC 1-1=E6 1-1=DC 1-4=E6 3D=7 11=9 4=E6 DC 1-1=E6 68=7 11=9 31=E6 3E=7
 11=9 6F=7 11=9 6F=7 11=9 80=9 6F=7 11=9 8=54 5B 66=7 11=9 6E-1=9 11=9 7D=9 6E-1=67 9 E-3=6B
 6D-1=76 9 E-3=7A 4D-1=DC 1C=DC 2=DC 2=D8 38=81 82 2=84 6-3=82 3=82 2-1=E6 9 2-1=E6 3F=DC 71=7
 2-1=9 53=DC 2D0-2=E6 3B5-1=9 1F=9 9E=9 B=E6 CC=E4 90=DE E6 DC DC=E6 DC 48=9 15-7=E6 3=DC 31-4=E6
 1-5=DC 1-1=E6 DC 2-1=DC 1-1=E6 1-1=DC 1-4=E6 DC 1-3=E6 66=7 10=9 27=E6 DC 1-6=E6 37-1=9 3B=7
 C-1=9 44=7 99-2=E6 2=1 1-4=DC 1-1=E6 1-3=DC E6 2-6=1 5=DC 7=E6 4-1=E6 C7-1=E6 DC 1-6=E6 DC
 1-1=E6 EA D6 DC CA 1-24=E6 E8 1-1=E4 DC DA E6 E9 DC E6 DC 2D1-1=E6 1-1=1 1-3=E6 1-2=1 1-1=E6
 5=E6 4-1=1 E6 DC E6 1-1=1 1-3=DC E6 BFF-2=E6 8E=9 61-1F=E6 22B=DA E4 E8 DE 1-1=E0 6A-1=8 75D5=E6
 5-9=E6 21-1=E6 51-1=E6 115=9 26=9 98=9 1C-11=E6 3A-2=DC 26=9 60=7 D=9 F0=E6 2-1=E6 DC 3-1=E6
 6-1=E6 2=E6 35=9 F7=9 4F31=1A 302-6=E6 1-6=DC 1-1=E6 3CE=DC E3=DC 96-4=E6 693=DC 2=E6 29=E6 1 DC
 5=9 A6=E6 DC 23E-3=E6 184-1=E6 9A-1=DC 1-2=E6 DC E6 1-3=DC 32=E6 DC E6 DC C1=9 2A=9 F=9 3A=9 7
 46-2=E6 31-1=9 3F=7 4D=9 A=7 6B=9 7 B3=7 9 51-1=7 11=9 19-6=E6 4-4=E6 CE=9 4=7 18=E6 64=9 7 FC=9
 7 7F=9 77=9 7 74=9 10E=9 7 103-1=9 5=7 9D=9 54=9 13=9 52=9 1A6=9 103=7 2-1=9 52=9 4D59-4=1
 3C-6=E6 4BA-1=6 4CAD=1 14C7-1=D8 1-2=1 4=E2 1-4=D8 9-7=DC 3-4=E6 1-1=DC 1F-3=E6 95-2=E6 DBC-6=E6
 2-10=E6 3-6=E6 2-1=E6 2-4=E6 106-6=E6 178=E6 3E-3=E6 5E1-6=DC 6E-5=E6 7"

def MappedRange.find (table : List MappedRange) (n : Nat) : Option (List Nat) :=
  (table.find? (·.range.holds n)).map fun m =>
    match m.image with
    | [one] => [one + (n - m.range.first)]
    | many => many

/-- Decomposes a code point; the syllables of Hangul are decomposed by arithmetic. -/
def decompose (n : Nat) : List Nat :=
  if n < 128 then [n]
  else if 0xAC00 ≤ n && n ≤ 0xD7A3 then
    let s := n - 0xAC00
    let lead := 0x1100 + s / 588
    let vowel := 0x1161 + (s % 588) / 28
    let tail := s % 28
    if tail == 0 then [lead, vowel] else [lead, vowel, 0x11A7 + tail]
  else (MappedRange.find decompositionTable n).getD [n]

def combiningClass (n : Nat) : Nat :=
  if n < 0x300 then 0
  else
    match combiningTable.find? (·.range.holds n) with
    | some m => m.image.headD 0
    | none => 0

def insertMark (mark : Nat) : List Nat → List Nat
  | [] => [mark]
  | m :: rest =>
    if combiningClass m > combiningClass mark then mark :: m :: rest
    else m :: insertMark mark rest

/-- Sorts every run of marks by class and keeps the order within a class. The second argument is
the run being collected. -/
def orderMarks : List Nat → List Nat → List Nat
  | [], run => run
  | n :: rest, run =>
    if combiningClass n == 0 then run ++ n :: orderMarks rest []
    else orderMarks rest (insertMark n run)

def composePair? (a b : Nat) : Option Nat :=
  if 0x1100 ≤ a && a ≤ 0x1112 && 0x1161 ≤ b && b ≤ 0x1175 then
    some (0xAC00 + ((a - 0x1100) * 21 + (b - 0x1161)) * 28)
  else if 0xAC00 ≤ a && a ≤ 0xD7A3 && (a - 0xAC00) % 28 == 0 && 0x11A8 ≤ b && b ≤ 0x11C2 then
    some (a + (b - 0x11A7))
  else
    let whole := decompose a ++ [b]
    (decompositionTable.find? fun m => m.composes && m.image == whole).map (·.range.first)

/-- Composes a starter with the marks that follow it. `pending` holds, in order, the marks that
did not compose; `lastClass` is the class of the last of them, or none if there are none. -/
def composeFrom (starter : Nat) (pending : List Nat) (lastClass : Option Nat) :
    List Nat → List Nat
  | [] => starter :: pending
  | n :: rest =>
    let cls := combiningClass n
    let blocked := match lastClass with
      | none => false
      | some last => last == 0 || last ≥ cls
    match (if blocked then none else composePair? starter n) with
    | some whole => composeFrom whole pending lastClass rest
    | none =>
      if cls == 0 then starter :: pending ++ composeFrom n [] none rest
      else composeFrom starter (pending ++ [n]) (some cls) rest

def composeAll : List Nat → List Nat
  | [] => []
  | n :: rest => if combiningClass n == 0 then composeFrom n [] none rest else n :: composeAll rest

def normalForm (name : List Char) : List Char :=
  if name.all (·.toNat < 128) then name
  else (composeAll (orderMarks (name.flatMap fun c => decompose c.toNat) [])).map Char.ofNat

end TypeStub.Text
