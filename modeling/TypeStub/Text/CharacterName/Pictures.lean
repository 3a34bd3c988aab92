/-!
# Pictures by name

Pictographs.
-/

namespace TypeStub.Text.CharacterName

def pictures : List (Nat × String) :=
  [(0x1F300, "CYCLONE;FOGGY;cs um;NIGHT w STARS;SUNRISE ov MOUNTAINS;SUNRISE;CITYSCAPE AT DUSK;
 SUNSET ov BUILDINGS;RAINBOW;BRIDGE AT NIGHT;WATER WAVE;VOLCANO;MILKY WAY;EARTH GLOBE
 EUROPE-AFRICA/AMERICAS/ASIA-AUSTRALIA;GLOBE w MERIDIANS;NEW mo sy;WAXING CRESCENT mo sy;FIRST qr
 mo sy;WAXING GIBBOUS mo sy;FULL mo sy;WANING GIBBOUS mo sy;LAST qr mo sy;WANING CRESCENT mo sy;
 CRESCENT mo;NEW mo w f;FIRST/LAST qr mo w f;FULL mo w f;SUN w f;GLOWING/SHOOTING sa;THERMOMETER;
 b DROPLET;wh SUN;2 w s CLOUD;2 BEHIND CLOUD;4 w RAIN;CLOUD w RAIN/SNOW/LIGHTNING/TORNADO;FOG;
 WIND BLOWING f;HOT DOG;TACO;BURRITO;CHESTNUT;SEEDLING;EVERGREEN/DECIDUOUS/PALM TREE;CACTUS;HOT
 PEPPER;TULIP;CHERRY BLOSSOM;ROSE;HIBISCUS;SUNFLOWER;BLOSSOM;EAR OF MAIZE/RICE;HERB;fo LEAF
 CLOVER;MAPLE/FALLEN LEAF;LEAF FLUTTERING IN WIND;MUSHROOM;TOMATO;AUBERGINE;GRAPES;MELON;
 WATERMELON;TANGERINE;LEMON;BANANA;PINEAPPLE;RED/GREEN APPLE;PEAR;PEACH;CHERRIES;STRAWBERRY;
 HAMBURGER;SLICE OF PIZZA;MEAT ON BONE;POULTRY LEG;RICE CRACKER/BALL;COOKED RICE;CURRY n RICE;
 STEAMING BOWL;SPAGHETTI;BREAD;FRENCH FRIES;ROASTED SWEET POTATO;DANGO;ODEN;SUSHI;FRIED SHRIMP;
 FISH CAKE w SWIRL DESIGN;SOFT ICE CREAM;SHAVED ICE;ICE CREAM;DOUGHNUT;COOKIE;CHOCOLATE BAR;
 CANDY;LOLLIPOP;CUSTARD;HONEY POT;SHORTCAKE;BENTO BOX;POT OF FOOD;COOKING;FORK n KNIFE;TEACUP
 WITHOUT HANDLE;SAKE BOTTLE n CUP;WINE/COCKTAIL GLASS;TROPICAL DRINK;BEER MUG;CLINKING BEER MUGS;
 BABY BOTTLE;FORK n KNIFE w PLATE;BOTTLE w POPPING CORK;POPCORN;RIBBON;WRAPPED PRESENT;BIRTHDAY
 CAKE;JACK-O-LANTERN;CHRISTMAS TREE;FATHER CHRISTMAS;FIREWORKS;FIREWORK SPARKLER;BALLOON;PARTY
 POPPER;CONFETTI BALL;TANABATA TREE;CROSSED FLAGS;PINE DECORATION;j DOLLS;CARP STREAMER;WIND
 CHIME;mo VIEWING CEREMONY;SCHOOL SATCHEL;GRADUATION CAP;he w TIP ON THE lf;BOUQUET OF FLOWERS;
 MILITARY MEDAL;REMINDER RIBBON;ms k w JACKS;STUDIO MICROPHONE;LEVEL SLIDER;CONTROL KNOBS;BEAMED
 ASCENDING/DESCENDING ms NOTES;FILM FRAMES;ADMISSION TICKETS;CAROUSEL HORSE;FERRIS WHEEL;ROLLER
 COASTER;FISHING POLE n FISH;MICROPHONE;MOVIE CAMERA;CINEMA;HEADPHONE;ARTIST PALETTE;TOP HAT;
 CIRCUS TENT;TICKET;CLAPPER BOARD;PERFORMING ARTS;VIDEO GAME;DIRECT HIT;SLOT MACHINE;BILLIARDS;
 GAME DIE;BOWLING;FLOWER PLAYING CARDS;ms NOTE;MULTIPLE ms NOTES;SAXOPHONE;GUITAR;ms k;TRUMPET;
 VIOLIN;ms SCORE;RUNNING SHIRT w SASH;TENNIS RACQUET n BALL;SKI n SKI BOOT;BASKETBALL n HOOP;
 CHEQUERED FLAG;SNOWBOARDER;RUNNER;SURFER;SPORTS MEDAL;TROPHY;HORSE RACING;AMERICAN/RUGBY
 FOOTBALL;SWIMMER;WEIGHT LIFTER;GOLFER;RACING MOTORCYCLE/CAR;CRICKET BAT n BALL;VOLLEYBALL;FIELD
 HOCKEY STICK n BALL;ICE HOCKEY STICK n PUCK;TABLE TENNIS PADDLE n BALL;SNOW CAPPED mt;CAMPING;
 BEACH w um;bi CONSTRUCTION;HOUSE BUILDINGS;CITYSCAPE;DERELICT HOUSE bi;CLASSICAL bi;DESERT;1
 ISLAND;NATIONAL PARK;STADIUM;HOUSE bi;1 w GARDEN;OFFICE bi;j/EUROPEAN POST OFFICE;HOSPITAL;BANK;
 AUTOMATED TELLER MACHINE;HOTEL;LOVE HOTEL;CONVENIENCE STORE;SCHOOL;DEPARTMENT STORE;FACTORY;
 IZAKAYA LANTERN;j/EUROPEAN CASTLE;wh/b PENNANT;WAVING wh/b FLAG;ROSETTE;b ROSETTE;LABEL;
 BADMINTON RACQUET n SHUTTLECOCK;BOW n a;AMPHORA;EMOJI MODIFIER FITZPATRICK
 TYPE-1-2/TYPE-3/TYPE-4/TYPE-5/TYPE-6;RAT;MOUSE;OX;WATER BUFFALO;COW;TIGER;LEOPARD;RABBIT;CAT;
 DRAGON;CROCODILE;WHALE;SNAIL;SNAKE;HORSE;RAM;GOAT;SHEEP;MONKEY;ROOSTER;CHICKEN;DOG;PIG;BOAR;
 ELEPHANT;OCTOPUS;SPIRAL SHELL;BUG;ANT;HONEYBEE;LADY BEETLE;FISH;TROPICAL FISH;BLOWFISH;TURTLE;
 HATCHING/BABY CHICK;FRONT-FACING BABY CHICK;BIRD;PENGUIN;KOALA;POODLE;DROMEDARY/BACTRIAN CAMEL;
 DOLPHIN;MOUSE/COW/TIGER/RABBIT/CAT/DRAGON f;SPOUTING WHALE;
 HORSE/MONKEY/DOG/PIG/FROG/HAMSTER/WOLF/BEAR/PANDA f;PIG NOSE;PAW PRINTS;CHIPMUNK;ey;EYE;EAR;
 NOSE;mu;TONGUE;wh UP/dn/lf/r po BACKHAND in;FISTED/WAVING/OK hn g;THUMBS UP/dn g;CLAPPING/o
 HANDS g;CROWN;WOMANS HAT;EYEGLASSES;NECKTIE;T-SHIRT;JEANS;DRESS;KIMONO;BIKINI;WOMANS CLOTHES;
 PURSE;HANDBAG;POUCH;MANS/ATHLETIC/HIGH-HEELED SHOE;WOMANS SANDAL/BOOTS;FOOTPRINTS;BUST/BUSTS IN
 SILHOUETTE;BOY;GIRL;MAN;WOMAN;FAMILY;MAN n WOMAN HOLDING HANDS;TWO MEN/WOMEN HOLDING HANDS;
 POLICE OFFICER;WOMAN w BUNNY EARS;BRIDE w VEIL;pe w BLOND HAIR;MAN w GUA PI MAO;2 TURBAN;OLDER
 MAN/WOMAN;BABY;CONSTRUCTION WORKER;PRINCESS;j OGRE/GOBLIN;GHOST;BABY ANGEL;EXTRATERRESTRIAL
 ALIEN;ALIEN MONSTER;IMP;SKULL;INFORMATION DESK pe;GUARDSMAN;DANCER;LIPSTICK;NAIL POLISH;f
 MASSAGE;HAIRCUT;BARBER POLE;SYRINGE;PILL;KISS mk;LOVE l;rn;GEM STONE;KISS;BOUQUET;COUPLE w he;
 WEDDING;BEATING/BROKEN he;TWO HEARTS;SPARKLING/GROWING he;he w a;BLUE/GREEN/YELLOW/PURPLE he;he
 w RIBBON;REVOLVING HEARTS;he DECORATION;da SHAPE w A DOT INSIDE;ELECTRIC li BULB;ANGER sy;BOMB;
 SLEEPING/COLLISION sy;SPLASHING SWEAT sy;DROPLET;DASH sy;PILE OF POO;FLEXED BICEPS;DIZZY sy;
 SPEECH/THOUGHT BALLOON;wh FLOWER;hu POINTS sy;MONEY BAG;CURRENCY EXCHANGE;hv DOLLAR g;CREDIT
 CARD;BANKNOTE w YEN/DOLLAR/EURO/POUND g;MONEY w WINGS;CHART w uw TREND n YEN g;SEAT;PERSONAL
 COMPUTER;BRIEFCASE;MINIDISC;FLOPPY DISK;OPTICAL DISC;DVD;FILE FOLDER;o FILE FOLDER;PAGE w CURL;1
 FACING UP;CALENDAR;TEAR-OFF CALENDAR;CARD in;CHART w uw/dw TREND;BAR CHART;CLIPBOARD;PUSHPIN;
 ROUND PUSHPIN;PAPERCLIP;STRAIGHT/ta RULER;BOOKMARK TABS;LEDGER;NOTEBOOK;1 w DECORATIVE COVER;
 cs/o/GREEN/BLUE/ORANGE BOOK;BOOKS;NAME BADGE;SCROLL;MEMO;tl RECEIVER;PAGER;FAX MACHINE;SATELLITE
 ANTENNA;PUBLIC ADDRESS LOUDSPEAKER;CHEERING MEGAPHONE;OUTBOX/INBOX TRAY;PACKAGE;E-MAIL sy;
 INCOMING en;en w dw a ab;cs MAILBOX w LOWERED/ra FLAG;o MAILBOX w ra/LOWERED FLAG;POSTBOX;POSTAL
 HORN;NEWSPAPER;MOBILE PHONE;2 w rw a AT lf;VIBRATION MODE;MOBILE PHONE OFF;NO MOBILE PHONES;
 ANTENNA w BARS;CAMERA;1 w FLASH;VIDEO CAMERA;TELEVISION;RADIO;VIDEOCASSETTE;FILM PROJECTOR;
 PORTABLE STEREO;PRAYER BEADS;TWISTED rw ARROWS;cl rw n lw o ci ARROWS;7 w cr ONE OVERLAY;cl/at
 dw n uw o ci ARROWS;LOW/HIGH BRIGHTNESS sy;SPEAKER w CANCELLATION st;SPEAKER;1 w ONE SOUND WAVE;
 2 t SOUND WAVES;BATTERY;ELECTRIC PLUG;le/ri MAGNIFYING GLASS;LOCK w INK PEN;cs LOCK w KEY;KEY;
 LOCK;o LOCK;BELL;1 w CANCELLATION st;BOOKMARK;LINK sy;RADIO BUTTON;BACK/END w lw a ab;ON w ex mk
 w lf r a ab;SOON w rw a ab;TOP w uw a ab;NO ONE UNDER eg sy;KEYCAP TEN;INPUT sy FOR la c/s
 LETTERS;3 NUMBERS/SYMBOLS;3 la LETTERS;FIRE;ELECTRIC TORCH;WRENCH;HAMMER;NUT n BOLT;HOCHO;
 PISTOL;MICROSCOPE;TELESCOPE;CRYSTAL BALL;SIX pi sa w mi DOT;j sy FOR BEGINNER;TRIDENT EMBLEM;
 b/wh sq BUTTON;LARGE RED/BLUE ci;1 ORANGE/BLUE da;s ORANGE/BLUE da;up/dp RED tr;1 s RED tr;lo/u
 r sh wh ci;cr co POMMEE;co POMMEE w HALF-CIRCLE be;1 POMMEE;NOTCHED lf/r SEMICIRCLE w t DOTS;sy
 FOR MARKS CHAPTER;wh/hv la co;CELTIC co;OM sy;DOVE OF PEACE;KAABA;MOSQUE;SYNAGOGUE;MENORAH w ni
 BRANCHES;BOWL OF HYGIEIA;CLOCK f ny/TEN/ee/tw OCLOCK;2
 ONE-THIRTY/TWO-THIRTY/THREE-THIRTY/FOUR-THIRTY/FIVE-THIRTY/SIX-THIRTY;2
 SEVEN-THIRTY/EIGHT-THIRTY/NINE-THIRTY/TEN-THIRTY/ELEVEN-THIRTY/TWELVE-THIRTY;r SPEAKER;2 w ONE
 SOUND WAVE;3 t SOUND WAVES;BULLHORN;1 w SOUND WAVES;RINGING BELL;BOOK;CANDLE;MANTELPIECE CLOCK;b
 SKULL n CROSSBONES;NO PIRACY;HOLE;MAN IN BUSINESS SUIT LEVITATING;SLEUTH OR SPY;DARK SUNGLASSES;
 SPIDER;1 WEB;JOYSTICK;MAN DANCING;lf hn tl RECEIVER;tl RECEIVER w PAGE;r hn tl RECEIVER;wh/b
 TOUCHTONE tl;tl ON TOP OF MODEM;CLAMSHELL MOBILE PHONE;BACK OF en;STAMPED en;en w LIGHTNING;
 FLYING en;PEN ov STAMPED en;LINKED PAPERCLIPS;b PUSHPIN;lo lf PENCIL;2 BALLPOINT/FOUNTAIN PEN;2
 PAINTBRUSH/CRAYON;lf WRITING hn;tu OK hn g;ra hn w FINGERS SPLAYED;re ra hn w FINGERS SPLAYED;1
 THUMBS UP/dn g;1 VICTORY hn;1 hn w mi FINGER EXTENDED;ra hn w PART BETWEEN mi n rn FINGERS;wh dn
 po lf hn in;SIDEWAYS wh lf/r po in;1 b lf/r po in;b lf/r po BACKHAND in;SIDEWAYS wh UP/dn po in;
 1 b UP/dn po in;b UP/dn po BACKHAND in;1 he;DESKTOP COMPUTER;k n MOUSE;t NETWORKED COMPUTERS;
 PRINTER;POCKET CALCULATOR;b/wh HARD SHELL FLOPPY DISK;SOFT SHELL FLOPPY DISK;TAPE CARTRIDGE;
 WIRED k;ONE/TWO/t BUTTON MOUSE;TRACKBALL;OLD PERSONAL COMPUTER;HARD DISK;SCREEN;PRINTER/FAX
 ICON;OPTICAL DISC ICON;DOCUMENT w TEXT;3 n PICTURE;2 PICTURE;FRAME w PICTURE/TILES;2 AN X;b
 FOLDER;FOLDER;o FOLDER;CARD in DIVIDERS;1 FILE BOX;FILE CABINET;EMPTY NOTE;2 PAGE/PAD;NOTE;1
 PAGE/PAD;EMPTY DOCUMENT/PAGE/PAGES;DOCUMENT;PAGE;PAGES;WASTEBASKET;SPIRAL NOTE/CALENDAR PAD;
 DESKTOP WINDOW;MINIMIZE;MAXIMIZE;OVERLAP;cl r n lf SEMICIRCLE ARROWS;CANCELLATION X;
 INCREASE/DECREASE FONT SIZE sy;COMPRESSION;OLD KEY;ROLLED-UP NEWSPAPER;PAGE w cr TEXT;STOCK
 CHART;DAGGER KNIFE;LIPS;SPEAKING HEAD IN SILHOUETTE;t RAYS ab/be/lf/r;lf/r SPEECH BUBBLE;TWO/t
 SPEECH BUBBLES;lf/r THOUGHT/ANGER BUBBLE;MOOD BUBBLE;LIGHTNING MOOD BUBBLE;1 MOOD;BALLOT BOX w
 BALLOT;1 sc X;1 BOX w sc X;1 BOLD sc X;1 BOX w BOLD sc X;li CHECK mk;BALLOT BOX w BOLD CHECK;
 WORLD MAP;MOUNT FUJI;TOKYO TOWER;STATUE OF LIBERTY;SILHOUETTE OF JAPAN;MOYAI;GRINNING f;2 w sm
 ey;f w TEARS OF JOY;sm f w o mu;5 n sm ey;6 COLD SWEAT;6 TIGHTLY-CLOSED ey;3 HALO/HORNS;WINKING
 f;sm f w sm ey;f SAVOURING DELICIOUS FOOD;RELIEVED f;sm f w HEART-SHAPED ey;3 SUNGLASSES;
 SMIRKING/NEUTRAL/EXPRESSIONLESS/UNAMUSED f;f w COLD SWEAT;PENSIVE/CONFUSED/CONFOUNDED/KISSING f;
 f THROWING A KISS;KISSING f w sm/cs ey;f w STUCK-OUT TONGUE;4 n WINKING EYE;5 TIGHTLY-CLOSED ey;
 DISAPPOINTED/WORRIED/ANGRY/POUTING/CRYING/PERSEVERING f;f w LOOK OF TRIUMPH;DISAPPOINTED BUT
 RELIEVED f;FROWNING f w o mu;ANGUISHED/FEARFUL/WEARY/SLEEPY/TIRED/GRIMACING f;LOUDLY CRYING f;f
 w o mu;HUSHED f;f w o mu n COLD SWEAT;1 SCREAMING IN FEAR;ASTONISHED/FLUSHED/SLEEPING/DIZZY f;f
 WITHOUT mu;1 w MEDICAL MASK;GRINNING CAT f w sm ey;CAT f w TEARS OF JOY;sm CAT f w o mu;4
 HEART-SHAPED ey;CAT f w WRY SMILE;KISSING CAT f w cs ey;POUTING/CRYING/WEARY CAT f;SLIGHTLY
 FROWNING/sm f;UPSIDE-DOWN f;f w ROLLING ey;2 NO GOOD GESTURE;2 OK GESTURE;pe BOWING DEEPLY;
 SEE-NO-EVIL/HEAR-NO-EVIL/SPEAK-NO-EVIL MONKEY;HAPPY pe RAISING ONE hn;pe RAISING BOTH HANDS IN
 CELEBRATION;1 FROWNING;1 w POUTING f;2 FOLDED HANDS"),
   (0x1F680, "ROCKET;HELICOPTER;STEAM LOCOMOTIVE;RAILWAY CAR;HIGH-SPEED TRAIN;2 w bu NOSE;TRAIN;
 METRO;li RAIL;STATION;TRAM;1 CAR;BUS;on BUS;TROLLEYBUS;BUS so;MINIBUS;AMBULANCE;FIRE ENGINE;
 POLICE CAR;on POLICE CAR;TAXI;on TAXI;AUTOMOBILE;on AUTOMOBILE;RECREATIONAL VEHICLE;DELIVERY
 TRUCK;ARTICULATED LORRY;TRACTOR;MONORAIL;mt/SUSPENSION RAILWAY;mt CABLEWAY;AERIAL TRAMWAY;SHIP;
 ROWBOAT;SPEEDBOAT;h/v TRAFFIC li;CONSTRUCTION g;POLICE CARS REVOLVING li;ta FLAG ON POST;DOOR;NO
 ENTRY g;SMOKING sy;NO SMOKING sy;PUT LITTER IN ITS PLACE sy;DO NOT LITTER sy;POTABLE/NON-POTABLE
 WATER sy;BICYCLE;NO BICYCLES;BICYCLIST;mt BICYCLIST;PEDESTRIAN;NO PEDESTRIANS;CHILDREN CROSSING;
 MENS/WOMENS sy;RESTROOM;BABY sy;TOILET;WATER CLOSET;SHOWER;BATH;BATHTUB;PASSPORT CONTROL;
 CUSTOMS;BAGGAGE CLAIM;lf LUGGAGE;tr w ROUNDED CORNERS;PROHIBITED g;cr INFORMATION SOURCE;
 BOYS/GIRLS sy;COUCH n LAMP;SLEEPING ACCOMMODATION;SHOPPING BAGS;BELLHOP BELL;BED;PLACE OF
 WORSHIP;OCTAGONAL g;SHOPPING TROLLEY;STUPA;PAGODA;HINDU TEMPLE;HUT;ELEVATOR"),
   (0x1F6DD, "PLAYGROUND SLIDE;WHEEL;rn BUOY;HAMMER n WRENCH;SHIELD;OIL DRUM;MOTORWAY;RAILWAY
 TRACK;MOTOR BOAT;up MILITARY ai;1 ai;1 s ai;s/NORTHEAST-POINTING ai;ai DEPARTURE/ARRIVING"),
   (0x1F6F0, "SATELLITE;on FIRE ENGINE;DIESEL LOCOMOTIVE;PASSENGER SHIP;SCOOTER;MOTOR SCOOTER;
 CANOE;SLED;FLYING SAUCER;SKATEBOARD;AUTO RICKSHAW;PICKUP TRUCK;ROLLER SKATE"),
   (0x1F900, "cr co FORMEE w fo/TWO DOTS;2 FORMEE;lf ha ci w fo/t/TWO DOTS;4 DOT;2 ci;DOWNWARD
 FACING ho;2 NOTCHED ho;2 ho w DOT;2 NOTCHED ho w DOT;PINCHED FINGERS;wh/BROWN he;PINCHING hn;
 ZIPPER-MOUTH/MONEY-MOUTH f;f w THERMOMETER;NERD/THINKING f;f w HEAD-BANDAGE;ROBOT/HUGGING f;g OF
 THE HORNS;CALL ME hn;ra BACK OF hn;LEFT-FACING/RIGHT-FACING FIST;HANDSHAKE;hn w in n mi FINGERS
 CROSSED;I LOVE YOU hn g;f w COWBOY HAT;CLOWN/NAUSEATED f;ROLLING ON THE FLOOR LAUGHING;
 DROOLING/LYING f;f PALM;SNEEZING f;f w ONE EYEBROW ra;GRINNING f w sa ey;3 ONE LARGE n ONE s
 EYE;f w FINGER COVERING cs LIPS;SERIOUS f w SYMBOLS COVERING mu;sm f w sm ey n hn COVERING mu;f
 w o mu VOMITING;SHOCKED f w EXPLODING HEAD;PREGNANT WOMAN;BREAST-FEEDING;PALMS UP TOGETHER;
 SELFIE;PRINCE;MAN IN TUXEDO;MOTHER CHRISTMAS;SHRUG;pe DOING CARTWHEEL;JUGGLING;FENCER;MODERN
 PENTATHLON;WRESTLERS;WATER POLO;HANDBALL;DIVING MASK;WILTED FLOWER;DRUM w DRUMSTICKS;CLINKING
 GLASSES;TUMBLER GLASS;SPOON;GOAL NET;RIFLE;FIRST/SECOND/THIRD PLACE MEDAL;BOXING GLOVE;MARTIAL
 ARTS UNIFORM;CURLING STONE;LACROSSE STICK n BALL;SOFTBALL;FLYING DISC;CROISSANT;AVOCADO;
 CUCUMBER;BACON;POTATO;CARROT;BAGUETTE BREAD;GREEN SALAD;SHALLOW PAN OF FOOD;STUFFED FLATBREAD;
 EGG;GLASS OF MILK;PEANUTS;KIWIFRUIT;PANCAKES;DUMPLING;FORTUNE COOKIE;TAKEOUT BOX;CHOPSTICKS;BOWL
 w SPOON;CUP w STRAW;COCONUT;BROCCOLI;PIE;PRETZEL;CUT OF MEAT;SANDWICH;CANNED FOOD;LEAFY GREEN;
 MANGO;mo CAKE;BAGEL;sm f w sm ey n t HEARTS;YAWNING f;sm f w TEAR;f w PARTY HORN n PARTY HAT;2
 UNEVEN ey n WAVY mu;OVERHEATED/FREEZING f;NINJA;DISGUISED f;f HOLDING BACK TEARS;1 w PLEADING
 ey;SARI;LAB COAT;GOGGLES;HIKING BOOT;FLAT SHOE;CRAB;LION f;SCORPION;TURKEY;UNICORN f;EAGLE;DUCK;
 BAT;SHARK;OWL;FOX f;BUTTERFLY;DEER;GORILLA;LIZARD;RHINOCEROS;SHRIMP;SQUID;GIRAFFE/ZEBRA f;
 HEDGEHOG;SAUROPOD;T-REX;CRICKET;KANGAROO;LLAMA;PEACOCK;HIPPOPOTAMUS;PARROT;RACCOON;LOBSTER;
 MOSQUITO;MICROBE;BADGER;SWAN;MAMMOTH;DODO;SLOTH;OTTER;ORANGUTAN;SKUNK;FLAMINGO;OYSTER;BEAVER;
 BISON;SEAL;GUIDE DOG;PROBING CANE;EMOJI COMPONENT RED/cu HAIR;2 BALD;2 wh HAIR;BONE;LEG;FOOT;
 TOOTH;SUPERHERO;SUPERVILLAIN;SAFETY VEST;EAR w HEARING AID;MOTORIZED/MANUAL WHEELCHAIR;
 MECHANICAL ARM/LEG;CHEESE WEDGE;CUPCAKE;SALT SHAKER;BEVERAGE BOX;GARLIC;ONION;FALAFEL;WAFFLE;
 BUTTER;MATE DRINK;ICE CUBE;BUBBLE TEA;TROLL;STANDING/KNEELING/DEAF pe;f w MONOCLE;ADULT;CHILD;
 OLDER ADULT;BEARDED pe;pe w HEADSCARF;1 IN STEAMY ROOM;1 CLIMBING;1 IN LOTUS POSITION;MAGE;
 FAIRY;VAMPIRE;MERPERSON;ELF;GENIE;ZOMBIE;BRAIN;ORANGE he;BILLED CAP;SCARF;GLOVES;COAT;SOCKS;RED
 GIFT en;FIRECRACKER;JIGSAW PUZZLE PIECE;TEST TUBE;PETRI DISH;DNA d HELIX;COMPASS;ABACUS;FIRE
 EXTINGUISHER;TOOLBOX;BRICK;MAGNET;LUGGAGE;LOTION BOTTLE;SPOOL OF THREAD;BALL OF YARN;SAFETY PIN;
 TEDDY BEAR;BROOM;BASKET;ROLL OF PAPER;BAR OF SOAP;SPONGE;RECEIPT;NAZAR AMULET")]

end TypeStub.Text.CharacterName
