import Polyglot.Unicode.CodeSet

/-!
The general category of a code point. The table is written as runs in the order of the code
points: a letter for the category, then the length of the run if it is more than one.
-/
namespace Polyglot.Unicode

inductive Category where
  | uppercase | lowercase | titlecase | modifier | other
  | nonspacing | spacing | enclosing
  | decimal | letterNumber | otherNumber
  | connector | dash | opening | closing | initial | final | punctuation
  | math | currency | modifierSymbol | symbol
  | space | line | paragraph
  | control | format | surrogate | privateUse | unassigned
deriving DecidableEq

namespace Category

def ofCode : Char → Category
  | 'U' => uppercase | 'l' => lowercase | 'T' => titlecase | 'm' => modifier | 'o' => other
  | 'n' => nonspacing | 'c' => spacing | 'e' => enclosing
  | 'd' => decimal | 'R' => letterNumber | 'f' => otherNumber
  | '_' => connector | '-' => dash | '(' => opening | ')' => closing
  | '<' => initial | '>' => final | '.' => punctuation
  | '+' => math | '$' => currency | '^' => modifierSymbol | '*' => symbol
  | 's' => space | 'L' => line | 'P' => paragraph
  | 'C' => control | 'F' => format | 'S' => surrogate | 'p' => privateUse
  | _ => unassigned

def codes : List String :=
  [
    "C32s.3$.3().+.-.2d10.2+3.2U26(.)^_^l26(+)+C33s.$4*.^*o<+F*^*+f2^l.2^fo>f3.U23+U7l24+l8UlUlUl",
    "UlUlUlUlUlUlUlUlUlUlUlUlUlUlUlUlUlUlUlUlUlUlUlUlUl2UlUlUlUlUlUlUlUl2UlUlUlUlUlUlUlUlUlUlUlUl",
    "UlUlUlUlUlUlUlUlUlUlUlU2lUlUl3U2lUlU2lU3l2U4lU2lU3l3U2lU2lUlUlU2lUl2UlU2lU3lUlU2l2oUl3o4UTlU",
    "TlUTlUlUlUlUlUlUlUlUl2UlUlUlUlUlUlUlUlUl2UTlUlU3lUlUlUlUlUlUlUlUlUlUlUlUlUlUlUlUlUlUlUlUlUlU",
    "lUlUlUlUlUlUlUl7U2lU2l2UlU4lUlUlUlUl69ol27m18^4m12^14m5^7m^m^17n112UlUlm^Ul?2ml3.U?4^2U.U3?U",
    "?U2lU17?U9l35Ul2U3l3UlUlUlUlUlUlUlUlUlUlUlUl5Ul+UlU2l2U51l48UlUlUlUlUlUlUlUlUlUlUlUlUlUlUlUl",
    "Ul*n5e2UlUlUlUlUlUlUlUlUlUlUlUlUlUlUlUlUlUlUlUlUlUlUlUlUlUlUlU2lUlUlUlUlUlUl2UlUlUlUlUlUlUlU",
    "lUlUlUlUlUlUlUlUlUlUlUlUlUlUlUlUlUlUlUlUlUlUlUlUlUlUlUlUlUlUlUlUlUlUlUlUlUlUlUlUl?U38?2m.6",
    "l41.-?2*2$?n45-n.n2.n2.n?8o27?4o4.2?11F6+3.2$.2*2n11.F.3o32mo10n21d10.4o2no99.on7F*n6m2n2*n4",
    "o2d10o3*2o.14?Fono30n27?2o89n11o?14d10o33n9m2*.3m?2n$2o22n4mn9mn3mn5?2.15?o25n3?2.?o11?5o24^",
    "o6?F2?5n9o41mn24Fn32co54ncnoc3n8c4nc2on7o10n2.2d10.mo15nc2?o8?2o2?2o22?o7?o?3o4?2noc3n4?2c2",
    "?2c2no?8c?4o2?o3n2?2d10o2$2f6*$o.n?2n2c?o6?4o2?2o22?o7?o2?o2?o2?2n?c3n2?4n2?2n3?3n?7o4?o?7",
    "d10n2o3n.?10n2c?o9?o3?o22?o7?o2?o5?2noc3n5?n2c?c2n?2o?15o2n2?2d10.$?7on6?nc2?o8?2o2?2o22?o7?",
    "o2?o5?2nocncn4?2c2?2c2n?7n2c?4o2?o3n2?2d10*of6?10no?o6?3o3?o4?3o2?o?o2?3o2?3o3?3o12?4c2nc2?3",
    "c3?c3n?2o?6c?14d10f3*6$*?5nc3no8?o3?o23?o16?2non3c4?n3?n4?7n2?o3?2o?2o2n2?2d10?7.f7*onc2.o8?",
    "o3?o23?o10?o5?2nocnc5?nc2?c2n2?7c2?6o2?o2n2?2d10?o2c?12n2c2o9?o3?o41n2oc3n4?c3?c3no*?4o3cf7",
    "o3n2?2d10f9*o6?nc2?o18?3o24?o9?o?2o7?3n?4c3n3?n?c8?6d10?2c2.?12o48no2n7?4$o6mn8.d10.2?37o2?o",
    "?o5?o24?o?o10no2n9o?2o5?m?n7?d10?2o4?32o*3.15*.*3n2*6d10f10*n*n*n()()c2o8?o36?4n14cn5.n2o5",
    "n11?n36?*8n*6?*2.5*4.2?37o43c2n4cn6cn2c2n2od10.6o6c2n2o4n3oc3o2c7o3n4o13nc2n2c6nocd10c3n*2",
    "U38?U?5U?2l43.ml3o329?o4?2o7?o?o4?2o41?o4?2o33?o4?2o7?o?o4?2o15?o57?o4?2o67?2n3.9f20?3o16*10",
    "?6U86?2l6?2-o620*.o17so26()?3o75.3R3o8?7o18n3c?9o19n2c.2?9o18n2?12o13?o3?n2?12o52n2cn7c8nc2",
    "n11.3m.3$on?2d10?6f10?6.6-.4n3Fnd10?6o35mo53?7o5n2o34no?5o70?10o31?n3c4n2c3?4c2nc6n3?4*?3.2",
    "d10o30?2o5?11o44?4o26?6d10f?3*34o23n2c2n?2.2o53cncn7?ncnc2n8c6n10?2nd10?6d10?6.7m.6?2n14en16",
    "?49n4co47ncn5cnc5nc2o8?.2d10.7*10n9*9.3n2co30cn4c2n2cn3o2d10o44ncn2c3ncn3c2?8.4o36c8n8c2n2?3",
    ".5d10?3o3d10o30m6.2l9Ul?5U43?2U3.8?8n3.n13cn7o4no6no2cn2o?5l44m63l13ml34m37n64UlUlUlUlUlUlUl",
    "UlUlUlUlUlUlUlUlUlUlUlUlUlUlUlUlUlUlUlUlUlUlUlUlUlUlUlUlUlUlUlUlUlUlUlUlUlUlUlUlUlUlUlUlUlUl",
    "UlUlUlUlUlUlUlUlUlUlUlUlUlUlUlUlUlUlUlUlUlUl9UlUlUlUlUlUlUlUlUlUlUlUlUlUlUlUlUlUlUlUlUlUlUlU",
    "lUlUlUlUlUlUlUlUlUlUlUlUlUlUlUlUlUlUlUlUlUlUlUlUlUl9U8l6?2U6?2l8U8l8U8l6?2U6?2l8?U?U?U?Ul8U8",
    "l14?2l8T8l8T8l8T8l5?l2U4T^l^3l3?l2U4T^3l4?2l2U4?^3l8U5^3?2l3?l2U4T^2?s11F5-6.2<>(<2>(<.8LPF5",
    "s.9<>.4_2.3+().11+._.10sF5?F10fm?2f6+3()mf10+3()?m13?3$33?15n13e4ne3n12?15*2U*4U*2lU3l2U3l*U",
    "*2+U5*6U*U*U*U4*lU4lo4l*2l2U2+5Ul4*+*2l*f16R35UlR4f*2?4+5*5+2*4+*2+*2+*7+*31+2*2+*+*31+268*8",
    "()()*20+2*7()*81+*30+25*40+6*72?22*11?21f60*78f22*183+*9+*54+8*111+*248()()()()()()()f30*44",
    "+5()+31()()()()()+16*256+131()()()()()()()()()()()+63()()+32()+258*48+21*2+6*39?2*32?*105U48",
    "l48UlU3l2UlUlUlU4lUl2Ul6m2U3lUlUlUlUlUlUlUlUlUlUlUlUlUlUlUlUlUlUlUlUlUlUlUlUlUlUlUlUlUlUlUlU",
    "lUlUlUlUlUlUlUlUlUlUlUlUlUlUlUlUlUl2*6UlUln3Ul?5.4f.2l38?l?5l?2o56?7m.?14no23?9o7?o7?o7?o7?",
    "o7?o7?o7?o7?n32.2<><>.3<>.<>.9-.2-.<>.2<>()()()().5m.10-2.4-.(.13*2.3()()()()-?34*26?*89?12",
    "*214?26*16s.3*moR()()()()()*2()()()()-()2*R9n4c2-m5*2R3mo.*2?o86?2n2^2m2o-o90.m3o?5o43?o94?",
    "*2f4*10o32*38?9*o16*31?f10*30f8*f15*32f10*39f15*320o6592*64o21013mo1143?3*55?9o40m6.2o268m.3",
    "o16d10o2?20UlUlUlUlUlUlUlUlUlUlUlUlUlUlUlUlUlUlUlUlUlUlUlone3.n10.mUlUlUlUlUlUlUlUlUlUlUlUlU",
    "lUlm2n2o70R10n2.6?8^23m9^2UlUlUlUlUlUlUl3UlUlUlUlUlUlUlUlUlUlUlUlUlUlUlUlUlUlUlUlUlUlUlUlUlU",
    "lUlUlUlUlUlml8UlUlU2lUlUlUlUlm^2UlUloUlUl3UlUlUlUlUlUlUlUlUlUlU5lU5lUlUlUlUlUlUlUlU4lUlU2l?2",
    "Ul?l?lUlUlUlU?21m3Ulom2lo7no3no4no23c2n2c*4n?3f6*2$*?6o52.4?8c2o50c16n2?8.2d10?6n18o6.3o.o2n",
    "d10o28n8.2o23n11c2?11.o29?3n3co47nc2n4c2n2c3.13?md10?4.2o5nmo9d10o5?o41n6c2n2c2n2?9o3no8nc?2",
    "d10?2.4o16mo6*3ocnco50non3o2n2o5n2ono?24o2m.2o11cn2c2.2om2cn?10o6?2o6?2o6?9o7?o7?l43^m4l9m^2",
    "?4l80o35c2nc2nc2.cn?2d10?6o11172?12o23?4o49?4S2048p6400o366?2o106?38l7?12l5?5ono10+o13?o5?o?",
    "o2?o2?o108^17?16o363)(*16o64?2o54?7*?32o12$*3n16.7().?6n16.-2_2()()()()()()()().2().4_3.3?.4",
    "-()()().3+-+3?.$.2?4o5?o135?2F?.3$.3().+.-.2d10.2+3.2U26(.)^_^l26(+)+().().2o10mo45m2o31?3o6",
    "?2o6?2o6?2o3?3$2+^*$2?*+4*2?10F3*2?2o12?o26?o19?o2?o15?2o14?34o123?5.3?4f45?3*9R53f4*17f2*3?",
    "*13?3*?47*45n?130o29?3o49?15nf27?4o32f4?9o20Ro8R?5o38n5?5o30?.o36?4o8.R5?42U40l40o78?2d10?6",
    "U36?4l36?4o40?8o52?11.U11?U15?U7?U2?l11?l15?l7?l2?3o52?12o311?9o22?10o8?24m6?m42?m9?69o6?2o?",
    "o44?o2?3o?2o23?.f8o23*2f7o31?8f9?48o19?o2?5f5o22f6?3.o26?5.?64o56?4f2o2f16?2f46on3?n2?5n4o4?",
    "o3?o29?2n3?4nf9?7.9?7o29f2.o29f3?32o8*o28n2?4f5.7?9o54?3.7o22?2f8o19?5f8o18?7.4?12f7?80o73",
    "?55U51?13l51?7f6o36n4?8d10?6d10o4moU22?3n5-ml22?8+2?208f31?o42?n2-?2o2?16o3?55n4o29f10o?8o22",
    "n11f4.5?22o18n4.4?38o21f7?20o23?9cnco53n15.7?4f20d10no2n2o?9n3co45c3n4c2n2.2F.4n?10F?2o25?7",
    "d10?6n3o36n5cn8?d10.4oc2o?8o35n.2o?9n2co48c3n9c2o4.4n4.cnd10o.o.3?f20?11o18?o25c3n3c2ncn2.6n",
    "o2n?62o7?o?o4?o15?o10.?6o47nc3n8?5d10?6n2c2?o8?2o2?2o22?o7?o2?o5?n2oc2nc4?2c2?2c3?2o?6c?5o5",
    "c2?2n7?3n5?11o10?o?2o?o38?oc3n6?c?2c?c4?c2ncnono.2?.2?8n2?29o53c3n8c2n3cno4.5d10.2?.no3?30",
    "o48c3n6cnc4n2cn2o2.o?8d10?166o47c3n4?2c4n2cn2.23o4n2?34o48c3n8c2ncn2.3o?11d10?6.13?19o43ncn",
    "c2n6cno.?6d10?6d20?28o27?2ncnc2n4cn5?4d10f2.3*o7?185o44c3n9cn2.?100U32l32d10f9?12o8?2o?2o8?",
    "o2?o24c6?c2?2n2cnococn.3?9d10?70o8?2o39c3n4?2n2c4no.oc?27on10o40n6con4.8n?8on6c2n3o46n13cn2",
    ".3o.5?13o73?7.10?182o33.?14d10?6o9?o37cn7?n6cno.5?10d10f19?3.2o30?2n22?cn7cn2cn2?73o7?o2?o38",
    "n6?3n?n2?n7on?8d10?6o6?o2?o32c5?n2?c2ncno?7d10?310o19n2c2.2?7n2oco13?o34c2n5?3c2ncn.13d10n",
    "?85o?15f21*8$4*17?13.o922?102R111?.5?11o196?2636o97.2?13o1072F16no6n15?10o3995?5o583?6841o30",
    "n12c3n3d10?1734o569?7o31?d10?4.2o79?d10?6o30?2n5.?10o48n7.5*4m4.*?10d10?f7?o21?5o19?432m3o40",
    "m2.3d10?198U32l32f23.4?101o75?4noc55?7n4m13?64m2.mn?11c2?14o6136?8o1238?41o10?8935m4?m7?m2?",
    "o291?15o?29o3?2o?14o4?8o396?2308o107?5o13?3o9?7o10?2*n2.F4?3932*240d10?6*436?76n46?2n23?9",
    "*116?60*246?10*39?2*60c2n3*3c6F8n8*2n7*30n4*61?21*66n3*?122f20?12f20?12*87?9f25?135U26l26U26",
    "l7?l18U26l26U?U2?2U?2U2?2U4?U8l4?l?l7?l11U26l26U2?U4?2U8?U7?l26U2?U4?U5?U?3U7?l26U26l26U26",
    "l26U26l26U26l26U26l26U26l28?2U25+l25+l6U25+l25+l6U25+l25+l6U25+l25+l6U25+l25+l6Ul?2d50*512",
    "n55*4n50*8n*14n*2.5?15n5?n15?1104l10ol20?6l6?213n7?n17?2n7?n2?n5?5m62?33n?112o45?3n7m7?2d10",
    "?4o*?320o30n?17o44n4d10?5$?464o27mn4d10?214o30n2od10?4.?480o7?o4?o2?o15?o197?2f9n7?41U34l34",
    "n7m?4d10?4.2?785f59*f3$f4?76f45*f15?194o4?o27?o2?o?2o?o10?o4?o?o?6o?4o?o?o?o3?o2?o?2o?o?o?o?",
    "o?o2?o?2o4?o7?o4?o4?o?o10?o17?5o3?o5?o17?52+2?270*44?4*100?12*15?2*15?*15?*37?10f13*161?56",
    "*29?13*44?4*9?7*2?14*6?154*251^5*728?4*17?3*13?3*119?4*95?6*12?4*?15*12?4*56?8*10?6*40?8*30",
    "?2*12?4*2?62*340?12*14?2*13?3*10?5*56?7*15?2*11?6*9?7*147?*92d10?1030o42720?32o4154?6o222?2",
    "o5762?14o7473?15o622?2466o542?1506o4939?5o4192?711761F?30F96?128n240?65040p65534?2p65534?2"
  ]

/-- Reads the written runs; `length` is what has been read of the length of `category`. -/
def readRuns (category : Category) (length : Nat) : List Char → List (Category × Nat)
  | [] => [(category, max length 1)]
  | c :: rest =>
    if c.isDigit then readRuns category (10 * length + (c.toNat - '0'.toNat)) rest
    else (category, max length 1) :: readRuns (ofCode c) 0 rest

def runs : List (Category × Nat) :=
  match codes.flatMap String.toList with
  | [] => []
  | c :: rest => readRuns (ofCode c) 0 rest

def find : List (Category × Nat) → Nat → Category
  | [], _ => unassigned
  | (category, length) :: rest, n => if n < length then category else find rest (n - length)

/-- The category of a character. -/
def ofChar (c : Char) : Category := find runs c.toNat

/-- The edges of the set of all code points whose category satisfies `p`, from a place on. -/
def edgesWhere (p : Category → Bool) : List (Category × Nat) → Nat → Bool → List Nat
  | [], place, inside => if inside then [place] else []
  | (k, length) :: rest, place, inside =>
    if p k == inside then edgesWhere p rest (place + length) inside
    else place :: edgesWhere p rest (place + length) (!inside)

/-- The code points whose category is one of the given ones. -/
def set (ks : List Category) : CodeSet := ⟨(edgesWhere ks.contains runs 0 false).toArray⟩

def cased : List Category := [uppercase, lowercase, titlecase]

def letters : List Category := cased ++ [modifier, other]

def marks : List Category := [nonspacing, spacing, enclosing]

def numbers : List Category := [decimal, letterNumber, otherNumber]

def punctuations : List Category :=
  [connector, dash, opening, closing, initial, final, punctuation]

def symbols : List Category := [math, currency, modifierSymbol, symbol]

def separators : List Category := [space, line, paragraph]

def others : List Category := [control, format, surrogate, privateUse, unassigned]

end Category

end Polyglot.Unicode
