import Guidebook.Text.Chars

/-!
# Named characters

The names that may stand for characters in HTML, with the numbers of the characters. The
names with one initial stand together, without it: a name, a colon, the numbers in decimal. Those of
the characters that markup is made of stand by themselves.
-/

namespace Guidebook.Html

/-- Names that may stand without the semicolon that ends a name. -/
def bareNames : List String :=
  ["AElig", "AMP", "Aacute", "Acirc", "Agrave", "Aring", "Atilde", "Auml", "COPY", "Ccedil", "ETH",
    "Eacute", "Ecirc", "Egrave", "Euml", "GT", "Iacute", "Icirc", "Igrave", "Iuml", "LT", "Ntilde",
    "Oacute", "Ocirc", "Ograve", "Oslash", "Otilde", "Ouml", "QUOT", "REG", "THORN", "Uacute",
    "Ucirc", "Ugrave", "Uuml", "Yacute", "aacute", "acirc", "acute", "aelig", "agrave", "amp",
    "aring", "atilde", "auml", "brvbar", "ccedil", "cedil", "cent", "copy", "curren", "deg",
    "divide", "eacute", "ecirc", "egrave", "eth", "euml", "frac12", "frac14", "frac34", "gt",
    "iacute", "icirc", "iexcl", "igrave", "iquest", "iuml", "laquo", "lt", "macr", "micro",
    "middot", "nbsp", "not", "ntilde", "oacute", "ocirc", "ograve", "ordf", "ordm", "oslash",
    "otilde", "ouml", "para", "plusmn", "pound", "quot", "raquo", "reg", "sect", "shy", "sup1",
    "sup2", "sup3", "szlig", "thorn", "times", "uacute", "ucirc", "ugrave", "uml", "uuml", "yacute",
    "yen", "yuml"]

/-- The names of the characters that markup is made of. -/
def markNames : List (List Char × Char) :=
  [(['a', 'm', 'p'], '&'), (['l', 't'], '<'), (['g', 't'], '>'), (['q', 'u', 'o', 't'], '"')]

/-- The other names by their initials. -/
def nameTable : List (Char × List String) :=
  [('A',
    ["Elig:198 MP:38 acute:193 breve:258 circ:194 cy:1040 fr:120068 grave:192 lpha:913 macr:256",
      "nd:10835 ogon:260 opf:120120 pplyFunction:8289 ring:197 scr:119964 ssign:8788 tilde:195",
      "uml:196"]),
  ('B',
    ["ackslash:8726 arv:10983 arwed:8966 cy:1041 ecause:8757 ernoullis:8492 eta:914 fr:120069",
      "opf:120121 reve:728 scr:8492 umpeq:8782"]),
  ('C',
    ["Hcy:1063 OPY:169 acute:262 ap:8914 apitalDifferentialD:8517 ayleys:8493 caron:268",
      "cedil:199 circ:264 conint:8752 dot:266 edilla:184 enterDot:183 fr:8493 hi:935",
      "ircleDot:8857 ircleMinus:8854 irclePlus:8853 ircleTimes:8855 lockwiseContourIntegral:8754",
      "loseCurlyDoubleQuote:8221 loseCurlyQuote:8217 olon:8759 olone:10868 ongruent:8801",
      "onint:8751 ontourIntegral:8750 opf:8450 oproduct:8720 ounterClockwiseContourIntegral:8755",
      "ross:10799 scr:119966 up:8915 upCap:8781"]),
  ('D',
    ["D:8517 Dotrahd:10513 Jcy:1026 Scy:1029 Zcy:1039 agger:8225 arr:8609 ashv:10980 caron:270",
      "cy:1044 el:8711 elta:916 fr:120071 iacriticalAcute:180 iacriticalDot:729",
      "iacriticalDoubleAcute:733 iacriticalGrave:96 iacriticalTilde:732 iamond:8900",
      "ifferentialD:8518 opf:120123 ot:168 otDot:8412 otEqual:8784 oubleContourIntegral:8751",
      "oubleDot:168 oubleDownArrow:8659 oubleLeftArrow:8656 oubleLeftRightArrow:8660",
      "oubleLeftTee:10980 oubleLongLeftArrow:10232 oubleLongLeftRightArrow:10234",
      "oubleLongRightArrow:10233 oubleRightArrow:8658 oubleRightTee:8872 oubleUpArrow:8657",
      "oubleUpDownArrow:8661 oubleVerticalBar:8741 ownArrow:8595 ownArrowBar:10515",
      "ownArrowUpArrow:8693 ownBreve:785 ownLeftRightVector:10576 ownLeftTeeVector:10590",
      "ownLeftVector:8637 ownLeftVectorBar:10582 ownRightTeeVector:10591 ownRightVector:8641",
      "ownRightVectorBar:10583 ownTee:8868 ownTeeArrow:8615 ownarrow:8659 scr:119967 strok:272"]),
  ('E',
    ["NG:330 TH:208 acute:201 caron:282 circ:202 cy:1069 dot:278 fr:120072 grave:200 lement:8712",
      "macr:274 mptySmallSquare:9723 mptyVerySmallSquare:9643 ogon:280 opf:120124 psilon:917",
      "qual:10869 qualTilde:8770 quilibrium:8652 scr:8496 sim:10867 ta:919 uml:203 xists:8707",
      "xponentialE:8519"]),
  ('F',
    ["cy:1060 fr:120073 illedSmallSquare:9724 illedVerySmallSquare:9642 opf:120125 orAll:8704",
      "ouriertrf:8497 scr:8497"]),
  ('G',
    ["Jcy:1027 T:62 amma:915 ammad:988 breve:286 cedil:290 circ:284 cy:1043 dot:288 fr:120074",
      "g:8921 opf:120126 reaterEqual:8805 reaterEqualLess:8923 reaterFullEqual:8807",
      "reaterGreater:10914 reaterLess:8823 reaterSlantEqual:10878 reaterTilde:8819 scr:119970",
      "t:8811"]),
  ('H',
    ["ARDcy:1066 acek:711 at:94 circ:292 fr:8460 ilbertSpace:8459 opf:8461 orizontalLine:9472",
      "scr:8459 strok:294 umpDownHump:8782 umpEqual:8783"]),
  ('I',
    ["Ecy:1045 Jlig:306 Ocy:1025 acute:205 circ:206 cy:1048 dot:304 fr:8465 grave:204 m:8465",
      "macr:298 maginaryI:8520 mplies:8658 nt:8748 ntegral:8747 ntersection:8898",
      "nvisibleComma:8291 nvisibleTimes:8290 ogon:302 opf:120128 ota:921 scr:8464 tilde:296",
      "ukcy:1030 uml:207"]),
  ('J',
    ["circ:308 cy:1049 fr:120077 opf:120129 scr:119973 sercy:1032 ukcy:1028"]),
  ('K',
    ["Hcy:1061 Jcy:1036 appa:922 cedil:310 cy:1050 fr:120078 opf:120130 scr:119974"]),
  ('L',
    ["Jcy:1033 T:60 acute:313 ambda:923 ang:10218 aplacetrf:8466 arr:8606 caron:317 cedil:315",
      "cy:1051 eftAngleBracket:10216 eftArrow:8592 eftArrowBar:8676 eftArrowRightArrow:8646",
      "eftCeiling:8968 eftDoubleBracket:10214 eftDownTeeVector:10593 eftDownVector:8643",
      "eftDownVectorBar:10585 eftFloor:8970 eftRightArrow:8596 eftRightVector:10574 eftTee:8867",
      "eftTeeArrow:8612 eftTeeVector:10586 eftTriangle:8882 eftTriangleBar:10703",
      "eftTriangleEqual:8884 eftUpDownVector:10577 eftUpTeeVector:10592 eftUpVector:8639",
      "eftUpVectorBar:10584 eftVector:8636 eftVectorBar:10578 eftarrow:8656 eftrightarrow:8660",
      "essEqualGreater:8922 essFullEqual:8806 essGreater:8822 essLess:10913 essSlantEqual:10877",
      "essTilde:8818 fr:120079 l:8920 leftarrow:8666 midot:319 ongLeftArrow:10229",
      "ongLeftRightArrow:10231 ongRightArrow:10230 ongleftarrow:10232 ongleftrightarrow:10234",
      "ongrightarrow:10233 opf:120131 owerLeftArrow:8601 owerRightArrow:8600 scr:8466 sh:8624",
      "strok:321 t:8810"]),
  ('M',
    ["ap:10501 cy:1052 ediumSpace:8287 ellintrf:8499 fr:120080 inusPlus:8723 opf:120132 scr:8499",
      "u:924"]),
  ('N',
    ["Jcy:1034 acute:323 caron:327 cedil:325 cy:1053 egativeMediumSpace:8203",
      "egativeThickSpace:8203 egativeThinSpace:8203 egativeVeryThinSpace:8203",
      "estedGreaterGreater:8811 estedLessLess:8810 ewLine:10 fr:120081 oBreak:8288",
      "onBreakingSpace:160 opf:8469 ot:10988 otCongruent:8802 otCupCap:8813",
      "otDoubleVerticalBar:8742 otElement:8713 otEqual:8800 otEqualTilde:8770+824 otExists:8708",
      "otGreater:8815 otGreaterEqual:8817 otGreaterFullEqual:8807+824 otGreaterGreater:8811+824",
      "otGreaterLess:8825 otGreaterSlantEqual:10878+824 otGreaterTilde:8821",
      "otHumpDownHump:8782+824 otHumpEqual:8783+824 otLeftTriangle:8938",
      "otLeftTriangleBar:10703+824 otLeftTriangleEqual:8940 otLess:8814 otLessEqual:8816",
      "otLessGreater:8824 otLessLess:8810+824 otLessSlantEqual:10877+824 otLessTilde:8820",
      "otNestedGreaterGreater:10914+824 otNestedLessLess:10913+824 otPrecedes:8832",
      "otPrecedesEqual:10927+824 otPrecedesSlantEqual:8928 otReverseElement:8716",
      "otRightTriangle:8939 otRightTriangleBar:10704+824 otRightTriangleEqual:8941",
      "otSquareSubset:8847+824 otSquareSubsetEqual:8930 otSquareSuperset:8848+824",
      "otSquareSupersetEqual:8931 otSubset:8834+8402 otSubsetEqual:8840 otSucceeds:8833",
      "otSucceedsEqual:10928+824 otSucceedsSlantEqual:8929 otSucceedsTilde:8831+824",
      "otSuperset:8835+8402 otSupersetEqual:8841 otTilde:8769 otTildeEqual:8772",
      "otTildeFullEqual:8775 otTildeTilde:8777 otVerticalBar:8740 scr:119977 tilde:209 u:925"]),
  ('O',
    ["Elig:338 acute:211 circ:212 cy:1054 dblac:336 fr:120082 grave:210 macr:332 mega:937",
      "micron:927 opf:120134 penCurlyDoubleQuote:8220 penCurlyQuote:8216 r:10836 scr:119978",
      "slash:216 tilde:213 times:10807 uml:214 verBar:8254 verBrace:9182 verBracket:9140",
      "verParenthesis:9180"]),
  ('P',
    ["artialD:8706 cy:1055 fr:120083 hi:934 i:928 lusMinus:177 oincareplane:8460 opf:8473",
      "r:10939 recedes:8826 recedesEqual:10927 recedesSlantEqual:8828 recedesTilde:8830 rime:8243",
      "roduct:8719 roportion:8759 roportional:8733 scr:119979 si:936"]),
  ('Q',
    ["UOT:34 fr:120084 opf:8474 scr:119980"]),
  ('R',
    ["Barr:10512 EG:174 acute:340 ang:10219 arr:8608 arrtl:10518 caron:344 cedil:342 cy:1056",
      "e:8476 everseElement:8715 everseEquilibrium:8651 everseUpEquilibrium:10607 fr:8476 ho:929",
      "ightAngleBracket:10217 ightArrow:8594 ightArrowBar:8677 ightArrowLeftArrow:8644",
      "ightCeiling:8969 ightDoubleBracket:10215 ightDownTeeVector:10589 ightDownVector:8642",
      "ightDownVectorBar:10581 ightFloor:8971 ightTee:8866 ightTeeArrow:8614 ightTeeVector:10587",
      "ightTriangle:8883 ightTriangleBar:10704 ightTriangleEqual:8885 ightUpDownVector:10575",
      "ightUpTeeVector:10588 ightUpVector:8638 ightUpVectorBar:10580 ightVector:8640",
      "ightVectorBar:10579 ightarrow:8658 opf:8477 oundImplies:10608 rightarrow:8667 scr:8475",
      "sh:8625 uleDelayed:10740"]),
  ('S',
    ["HCHcy:1065 Hcy:1064 OFTcy:1068 acute:346 c:10940 caron:352 cedil:350 circ:348 cy:1057",
      "fr:120086 hortDownArrow:8595 hortLeftArrow:8592 hortRightArrow:8594 hortUpArrow:8593",
      "igma:931 mallCircle:8728 opf:120138 qrt:8730 quare:9633 quareIntersection:8851",
      "quareSubset:8847 quareSubsetEqual:8849 quareSuperset:8848 quareSupersetEqual:8850",
      "quareUnion:8852 scr:119982 tar:8902 ub:8912 ubset:8912 ubsetEqual:8838 ucceeds:8827",
      "ucceedsEqual:10928 ucceedsSlantEqual:8829 ucceedsTilde:8831 uchThat:8715 um:8721 up:8913",
      "uperset:8835 upersetEqual:8839 upset:8913"]),
  ('T',
    ["HORN:222 RADE:8482 SHcy:1035 Scy:1062 ab:9 au:932 caron:356 cedil:354 cy:1058 fr:120087",
      "herefore:8756 heta:920 hickSpace:8287+8202 hinSpace:8201 ilde:8764 ildeEqual:8771",
      "ildeFullEqual:8773 ildeTilde:8776 opf:120139 ripleDot:8411 scr:119983 strok:358"]),
  ('U',
    ["acute:218 arr:8607 arrocir:10569 brcy:1038 breve:364 circ:219 cy:1059 dblac:368 fr:120088",
      "grave:217 macr:362 nderBar:95 nderBrace:9183 nderBracket:9141 nderParenthesis:9181",
      "nion:8899 nionPlus:8846 ogon:370 opf:120140 pArrow:8593 pArrowBar:10514",
      "pArrowDownArrow:8645 pDownArrow:8597 pEquilibrium:10606 pTee:8869 pTeeArrow:8613",
      "parrow:8657 pdownarrow:8661 pperLeftArrow:8598 pperRightArrow:8599 psi:978 psilon:933",
      "ring:366 scr:119984 tilde:360 uml:220"]),
  ('V',
    ["Dash:8875 bar:10987 cy:1042 dash:8873 dashl:10982 ee:8897 erbar:8214 ert:8214",
      "erticalBar:8739 erticalLine:124 erticalSeparator:10072 erticalTilde:8768 eryThinSpace:8202",
      "fr:120089 opf:120141 scr:119985 vdash:8874"]),
  ('W',
    ["circ:372 edge:8896 fr:120090 opf:120142 scr:119986"]),
  ('X',
    ["fr:120091 i:926 opf:120143 scr:119987"]),
  ('Y',
    ["Acy:1071 Icy:1031 Ucy:1070 acute:221 circ:374 cy:1067 fr:120092 opf:120144 scr:119988",
      "uml:376"]),
  ('Z',
    ["Hcy:1046 acute:377 caron:381 cy:1047 dot:379 eroWidthSpace:8203 eta:918 fr:8488 opf:8484",
      "scr:119989"]),
  ('a',
    ["acute:225 breve:259 c:8766 cE:8766+819 cd:8767 circ:226 cute:180 cy:1072 elig:230 f:8289",
      "fr:120094 grave:224 lefsym:8501 leph:8501 lpha:945 macr:257 malg:10815 nd:8743",
      "ndand:10837 ndd:10844 ndslope:10840 ndv:10842 ng:8736 nge:10660 ngle:8736 ngmsd:8737",
      "ngmsdaa:10664 ngmsdab:10665 ngmsdac:10666 ngmsdad:10667 ngmsdae:10668 ngmsdaf:10669",
      "ngmsdag:10670 ngmsdah:10671 ngrt:8735 ngrtvb:8894 ngrtvbd:10653 ngsph:8738 ngst:197",
      "ngzarr:9084 ogon:261 opf:120146 p:8776 pE:10864 pacir:10863 pe:8778 pid:8779 pos:39",
      "pprox:8776 pproxeq:8778 ring:229 scr:119990 st:42 symp:8776 sympeq:8781 tilde:227 uml:228",
      "wconint:8755 wint:10769"]),
  ('b',
    ["Not:10989 ackcong:8780 ackepsilon:1014 ackprime:8245 acksim:8765 acksimeq:8909 arvee:8893",
      "arwed:8965 arwedge:8965 brk:9141 brktbrk:9142 cong:8780 cy:1073 dquo:8222 ecaus:8757",
      "ecause:8757 emptyv:10672 epsi:1014 ernou:8492 eta:946 eth:8502 etween:8812 fr:120095",
      "igcap:8898 igcirc:9711 igcup:8899 igodot:10752 igoplus:10753 igotimes:10754 igsqcup:10758",
      "igstar:9733 igtriangledown:9661 igtriangleup:9651 iguplus:10756 igvee:8897 igwedge:8896",
      "karow:10509 lacklozenge:10731 lacksquare:9642 lacktriangle:9652 lacktriangledown:9662",
      "lacktriangleleft:9666 lacktriangleright:9656 lank:9251 lk12:9618 lk14:9617 lk34:9619",
      "lock:9608 ne:61+8421 nequiv:8801+8421 not:8976 opf:120147 ot:8869 ottom:8869 owtie:8904",
      "oxDL:9559 oxDR:9556 oxDl:9558 oxDr:9555 oxH:9552 oxHD:9574 oxHU:9577 oxHd:9572 oxHu:9575",
      "oxUL:9565 oxUR:9562 oxUl:9564 oxUr:9561 oxV:9553 oxVH:9580 oxVL:9571 oxVR:9568 oxVh:9579",
      "oxVl:9570 oxVr:9567 oxbox:10697 oxdL:9557 oxdR:9554 oxdl:9488 oxdr:9484 oxh:9472 oxhD:9573",
      "oxhU:9576 oxhd:9516 oxhu:9524 oxminus:8863 oxplus:8862 oxtimes:8864 oxuL:9563 oxuR:9560",
      "oxul:9496 oxur:9492 oxv:9474 oxvH:9578 oxvL:9569 oxvR:9566 oxvh:9532 oxvl:9508 oxvr:9500",
      "prime:8245 reve:728 rvbar:166 scr:119991 semi:8271 sim:8765 sime:8909 sol:92 solb:10693",
      "solhsub:10184 ull:8226 ullet:8226 ump:8782 umpE:10926 umpe:8783 umpeq:8783"]),
  ('c',
    ["acute:263 ap:8745 apand:10820 apbrcup:10825 apcap:10827 apcup:10823 apdot:10816",
      "aps:8745+65024 aret:8257 aron:711 caps:10829 caron:269 cedil:231 circ:265 cups:10828",
      "cupssm:10832 dot:267 edil:184 emptyv:10674 ent:162 enterdot:183 fr:120096 hcy:1095",
      "heck:10003 heckmark:10003 hi:967 ir:9675 irE:10691 irc:710 irceq:8791 irclearrowleft:8634",
      "irclearrowright:8635 ircledR:174 ircledS:9416 ircledast:8859 ircledcirc:8858",
      "ircleddash:8861 ire:8791 irfnint:10768 irmid:10991 irscir:10690 lubs:9827 lubsuit:9827",
      "olon:58 olone:8788 oloneq:8788 omma:44 ommat:64 omp:8705 ompfn:8728 omplement:8705",
      "omplexes:8450 ong:8773 ongdot:10861 onint:8750 opf:120148 oprod:8720 opy:169 opysr:8471",
      "rarr:8629 ross:10007 scr:119992 sub:10959 sube:10961 sup:10960 supe:10962 tdot:8943",
      "udarrl:10552 udarrr:10549 uepr:8926 uesc:8927 ularr:8630 ularrp:10557 up:8746",
      "upbrcap:10824 upcap:10822 upcup:10826 updot:8845 upor:10821 ups:8746+65024 urarr:8631",
      "urarrm:10556 urlyeqprec:8926 urlyeqsucc:8927 urlyvee:8910 urlywedge:8911 urren:164",
      "urvearrowleft:8630 urvearrowright:8631 uvee:8910 uwed:8911 wconint:8754 wint:8753",
      "ylcty:9005"]),
  ('d',
    ["Arr:8659 Har:10597 agger:8224 aleth:8504 arr:8595 ash:8208 ashv:8867 bkarow:10511 blac:733",
      "caron:271 cy:1076 d:8518 dagger:8225 darr:8650 dotseq:10871 eg:176 elta:948 emptyv:10673",
      "fisht:10623 fr:120097 harl:8643 harr:8642 iam:8900 iamond:8900 iamondsuit:9830 iams:9830",
      "ie:168 igamma:989 isin:8946 iv:247 ivide:247 ivideontimes:8903 ivonx:8903 jcy:1106",
      "lcorn:8990 lcrop:8973 ollar:36 opf:120149 ot:729 oteq:8784 oteqdot:8785 otminus:8760",
      "otplus:8724 otsquare:8865 oublebarwedge:8966 ownarrow:8595 owndownarrows:8650",
      "ownharpoonleft:8643 ownharpoonright:8642 rbkarow:10512 rcorn:8991 rcrop:8972 scr:119993",
      "scy:1109 sol:10742 strok:273 tdot:8945 tri:9663 trif:9662 uarr:8693 uhar:10607",
      "wangle:10662 zcy:1119 zigrarr:10239"]),
  ('e',
    ["DDot:10871 Dot:8785 acute:233 aster:10862 caron:283 cir:8790 circ:234 colon:8789 cy:1101",
      "dot:279 e:8519 fDot:8786 fr:120098 g:10906 grave:232 gs:10902 gsdot:10904 l:10905",
      "linters:9191 ll:8467 ls:10901 lsdot:10903 macr:275 mpty:8709 mptyset:8709 mptyv:8709",
      "msp13:8196 msp14:8197 msp:8195 ng:331 nsp:8194 ogon:281 opf:120150 par:8917 parsl:10723",
      "plus:10865 psi:949 psilon:949 psiv:1013 qcirc:8790 qcolon:8789 qsim:8770 qslantgtr:10902",
      "qslantless:10901 quals:61 quest:8799 quiv:8801 quivDD:10872 qvparsl:10725 rDot:8787",
      "rarr:10609 scr:8495 sdot:8784 sim:8770 ta:951 th:240 uml:235 uro:8364 xcl:33 xist:8707",
      "xpectation:8496 xponentiale:8519"]),
  ('f',
    ["allingdotseq:8786 cy:1092 emale:9792 filig:64259 flig:64256 fllig:64260 fr:120099",
      "ilig:64257 jlig:102+106 lat:9837 llig:64258 ltns:9649 nof:402 opf:120151 orall:8704",
      "ork:8916 orkv:10969 partint:10765 rac12:189 rac13:8531 rac14:188 rac15:8533 rac16:8537",
      "rac18:8539 rac23:8532 rac25:8534 rac34:190 rac35:8535 rac38:8540 rac45:8536 rac56:8538",
      "rac58:8541 rac78:8542 rasl:8260 rown:8994 scr:119995"]),
  ('g',
    ["E:8807 El:10892 acute:501 amma:947 ammad:989 ap:10886 breve:287 circ:285 cy:1075 dot:289",
      "e:8805 el:8923 eq:8805 eqq:8807 eqslant:10878 es:10878 escc:10921 esdot:10880 esdoto:10882",
      "esdotol:10884 esl:8923+65024 esles:10900 fr:120100 g:8811 gg:8921 imel:8503 jcy:1107",
      "l:8823 lE:10898 la:10917 lj:10916 nE:8809 nap:10890 napprox:10890 ne:10888 neq:10888",
      "neqq:8809 nsim:8935 opf:120152 rave:96 scr:8458 sim:8819 sime:10894 siml:10896",
      "tcc:10919 tcir:10874 tdot:8919 tlPar:10645 tquest:10876 trapprox:10886 trarr:10616",
      "trdot:8919 treqless:8923 treqqless:10892 trless:8823 trsim:8819 vertneqq:8809+65024",
      "vnE:8809+65024"]),
  ('h',
    ["Arr:8660 airsp:8202 alf:189 amilt:8459 ardcy:1098 arr:8596 arrcir:10568 arrw:8621 bar:8463",
      "circ:293 earts:9829 eartsuit:9829 ellip:8230 ercon:8889 fr:120101 ksearow:10533",
      "kswarow:10534 oarr:8703 omtht:8763 ookleftarrow:8617 ookrightarrow:8618 opf:120153",
      "orbar:8213 scr:119997 slash:8463 strok:295 ybull:8259 yphen:8208"]),
  ('i',
    ["acute:237 c:8291 circ:238 cy:1080 ecy:1077 excl:161 ff:8660 fr:120102 grave:236 i:8520",
      "iiint:10764 iint:8749 infin:10716 iota:8489 jlig:307 macr:299 mage:8465 magline:8464",
      "magpart:8465 math:305 mof:8887 mped:437 n:8712 ncare:8453 nfin:8734 nfintie:10717",
      "nodot:305 nt:8747 ntcal:8890 ntegers:8484 ntercal:8890 ntlarhk:10775 ntprod:10812 ocy:1105",
      "ogon:303 opf:120154 ota:953 prod:10812 quest:191 scr:119998 sin:8712 sinE:8953 sindot:8949",
      "sins:8948 sinsv:8947 sinv:8712 t:8290 tilde:297 ukcy:1110 uml:239"]),
  ('j',
    ["circ:309 cy:1081 fr:120103 math:567 opf:120155 scr:119999 sercy:1112 ukcy:1108"]),
  ('k',
    ["appa:954 appav:1008 cedil:311 cy:1082 fr:120104 green:312 hcy:1093 jcy:1116 opf:120156",
      "scr:120000"]),
  ('l',
    ["Aarr:8666 Arr:8656 Atail:10523 Barr:10510 E:8806 Eg:10891 Har:10594 acute:314",
      "aemptyv:10676 agran:8466 ambda:955 ang:10216 angd:10641 angle:10216 ap:10885 aquo:171",
      "arr:8592 arrb:8676 arrbfs:10527 arrfs:10525 arrhk:8617 arrlp:8619 arrpl:10553 arrsim:10611",
      "arrtl:8610 at:10923 atail:10521 ate:10925 ates:10925+65024 barr:10508 bbrk:10098 brace:123",
      "brack:91 brke:10635 brksld:10639 brkslu:10637 caron:318 cedil:316 ceil:8968 cub:123",
      "cy:1083 dca:10550 dquo:8220 dquor:8222 drdhar:10599 drushar:10571 dsh:8626 e:8804",
      "eftarrow:8592 eftarrowtail:8610 eftharpoondown:8637 eftharpoonup:8636 eftleftarrows:8647",
      "eftrightarrow:8596 eftrightarrows:8646 eftrightharpoons:8651 eftrightsquigarrow:8621",
      "eftthreetimes:8907 eg:8922 eq:8804 eqq:8806 eqslant:10877 es:10877 escc:10920 esdot:10879",
      "esdoto:10881 esdotor:10883 esg:8922+65024 esges:10899 essapprox:10885 essdot:8918",
      "esseqgtr:8922 esseqqgtr:10891 essgtr:8822 esssim:8818 fisht:10620 floor:8970 fr:120105",
      "g:8822 gE:10897 hard:8637 haru:8636 harul:10602 hblk:9604 jcy:1113 l:8810 larr:8647",
      "lcorner:8990 lhard:10603 ltri:9722 midot:320 moust:9136 moustache:9136 nE:8808 nap:10889",
      "napprox:10889 ne:10887 neq:10887 neqq:8808 nsim:8934 oang:10220 oarr:8701 obrk:10214",
      "ongleftarrow:10229 ongleftrightarrow:10231 ongmapsto:10236 ongrightarrow:10230",
      "ooparrowleft:8619 ooparrowright:8620 opar:10629 opf:120157 oplus:10797 otimes:10804",
      "owast:8727 owbar:95 oz:9674 ozenge:9674 ozf:10731 par:40 parlt:10643 rarr:8646",
      "rcorner:8991 rhar:8651 rhard:10605 rm:8206 rtri:8895 saquo:8249 scr:120001 sh:8624",
      "sim:8818 sime:10893 simg:10895 sqb:91 squo:8216 squor:8218 strok:322 tcc:10918",
      "tcir:10873 tdot:8918 three:8907 times:8905 tlarr:10614 tquest:10875 trPar:10646 tri:9667",
      "trie:8884 trif:9666 urdshar:10570 uruhar:10598 vertneqq:8808+65024 vnE:8808+65024"]),
  ('m',
    ["DDot:8762 acr:175 ale:9794 alt:10016 altese:10016 ap:8614 apsto:8614 apstodown:8615",
      "apstoleft:8612 apstoup:8613 arker:9646 comma:10793 cy:1084 dash:8212 easuredangle:8737",
      "fr:120106 ho:8487 icro:181 id:8739 idast:42 idcir:10992 iddot:183 inus:8722 inusb:8863",
      "inusd:8760 inusdu:10794 lcp:10971 ldr:8230 nplus:8723 odels:8871 opf:120158 p:8723",
      "scr:120002 stpos:8766 u:956 ultimap:8888 umap:8888"]),
  ('n',
    ["Gg:8921+824 Gt:8811+8402 Gtv:8811+824 Leftarrow:8653 Leftrightarrow:8654 Ll:8920+824",
      "Lt:8810+8402 Ltv:8810+824 Rightarrow:8655 VDash:8879 Vdash:8878 abla:8711 acute:324",
      "ang:8736+8402 ap:8777 apE:10864+824 apid:8779+824 apos:329 approx:8777 atur:9838",
      "atural:9838 aturals:8469 bsp:160 bump:8782+824 bumpe:8783+824 cap:10819 caron:328",
      "cedil:326 cong:8775 congdot:10861+824 cup:10818 cy:1085 dash:8211 e:8800 eArr:8663",
      "earhk:10532 earr:8599 earrow:8599 edot:8784+824 equiv:8802 esear:10536 esim:8770+824",
      "exist:8708 exists:8708 fr:120107 gE:8807+824 ge:8817 geq:8817 geqq:8807+824",
      "geqslant:10878+824 ges:10878+824 gsim:8821 gt:8815 gtr:8815 hArr:8654 harr:8622 hpar:10994",
      "i:8715 is:8956 isd:8954 iv:8715 jcy:1114 lArr:8653 lE:8806+824 larr:8602 ldr:8229 le:8816",
      "leftarrow:8602 leftrightarrow:8622 leq:8816 leqq:8806+824 leqslant:10877+824 les:10877+824",
      "less:8814 lsim:8820 lt:8814 ltri:8938 ltrie:8940 mid:8740 opf:120159 ot:172 otin:8713",
      "otinE:8953+824 otindot:8949+824 otinva:8713 otinvb:8951 otinvc:8950 otni:8716 otniva:8716",
      "otnivb:8958 otnivc:8957 par:8742 parallel:8742 parsl:11005+8421 part:8706+824 polint:10772",
      "pr:8832 prcue:8928 pre:10927+824 prec:8832 preceq:10927+824 rArr:8655 rarr:8603",
      "rarrc:10547+824 rarrw:8605+824 rightarrow:8603 rtri:8939 rtrie:8941 sc:8833 sccue:8929",
      "sce:10928+824 scr:120003 shortmid:8740 shortparallel:8742 sim:8769 sime:8772 simeq:8772",
      "smid:8740 spar:8742 sqsube:8930 sqsupe:8931 sub:8836 subE:10949+824 sube:8840",
      "subset:8834+8402 subseteq:8840 subseteqq:10949+824 succ:8833 succeq:10928+824 sup:8837",
      "supE:10950+824 supe:8841 supset:8835+8402 supseteq:8841 supseteqq:10950+824 tgl:8825",
      "tilde:241 tlg:8824 triangleleft:8938 trianglelefteq:8940 triangleright:8939",
      "trianglerighteq:8941 u:957 um:35 umero:8470 umsp:8199 vDash:8877 vHarr:10500 vap:8781+8402",
      "vdash:8876 vge:8805+8402 vgt:62+8402 vinfin:10718 vlArr:10498 vle:8804+8402 vlt:60+8402",
      "vltrie:8884+8402 vrArr:10499 vrtrie:8885+8402 vsim:8764+8402 wArr:8662 warhk:10531",
      "warr:8598 warrow:8598 wnear:10535"]),
  ('o',
    ["S:9416 acute:243 ast:8859 cir:8858 circ:244 cy:1086 dash:8861 dblac:337 div:10808 dot:8857",
      "dsold:10684 elig:339 fcir:10687 fr:120108 gon:731 grave:242 gt:10689 hbar:10677 hm:937",
      "int:8750 larr:8634 lcir:10686 lcross:10683 line:8254 lt:10688 macr:333 mega:969 micron:959",
      "mid:10678 minus:8854 opf:120160 par:10679 perp:10681 plus:8853 r:8744 rarr:8635 rd:10845",
      "rder:8500 rderof:8500 rdf:170 rdm:186 rigof:8886 ror:10838 rslope:10839 rv:10843 scr:8500",
      "slash:248 sol:8856 tilde:245 times:8855 timesas:10806 uml:246 vbar:9021"]),
  ('p',
    ["ar:8741 ara:182 arallel:8741 arsim:10995 arsl:11005 art:8706 cy:1087 ercnt:37 eriod:46",
      "ermil:8240 erp:8869 ertenk:8241 fr:120109 hi:966 hiv:981 hmmat:8499 hone:9742 i:960",
      "itchfork:8916 iv:982 lanck:8463 lanckh:8462 lankv:8463 lus:43 lusacir:10787 lusb:8862",
      "luscir:10786 lusdo:8724 lusdu:10789 luse:10866 lusmn:177 lussim:10790 lustwo:10791 m:177",
      "ointint:10773 opf:120161 ound:163 r:8826 rE:10931 rap:10935 rcue:8828 re:10927 rec:8826",
      "recapprox:10935 reccurlyeq:8828 receq:10927 recnapprox:10937 recneqq:10933 recnsim:8936",
      "recsim:8830 rime:8242 rimes:8473 rnE:10933 rnap:10937 rnsim:8936 rod:8719 rofalar:9006",
      "rofline:8978 rofsurf:8979 rop:8733 ropto:8733 rsim:8830 rurel:8880 scr:120005 si:968",
      "uncsp:8200"]),
  ('q',
    ["fr:120110 int:10764 opf:120162 prime:8279 scr:120006 uaternions:8461 uatint:10774 uest:63",
      "uesteq:8799"]),
  ('r',
    ["Aarr:8667 Arr:8658 Atail:10524 Barr:10511 Har:10596 ace:8765+817 acute:341 adic:8730",
      "aemptyv:10675 ang:10217 angd:10642 ange:10661 angle:10217 aquo:187 arr:8594 arrap:10613",
      "arrb:8677 arrbfs:10528 arrc:10547 arrfs:10526 arrhk:8618 arrlp:8620 arrpl:10565",
      "arrsim:10612 arrtl:8611 arrw:8605 atail:10522 atio:8758 ationals:8474 barr:10509",
      "bbrk:10099 brace:125 brack:93 brke:10636 brksld:10638 brkslu:10640 caron:345 cedil:343",
      "ceil:8969 cub:125 cy:1088 dca:10551 dldhar:10601 dquo:8221 dquor:8221 dsh:8627 eal:8476",
      "ealine:8475 ealpart:8476 eals:8477 ect:9645 eg:174 fisht:10621 floor:8971 fr:120111",
      "hard:8641 haru:8640 harul:10604 ho:961 hov:1009 ightarrow:8594 ightarrowtail:8611",
      "ightharpoondown:8641 ightharpoonup:8640 ightleftarrows:8644 ightleftharpoons:8652",
      "ightrightarrows:8649 ightsquigarrow:8605 ightthreetimes:8908 ing:730 isingdotseq:8787",
      "larr:8644 lhar:8652 lm:8207 moust:9137 moustache:9137 nmid:10990 oang:10221 oarr:8702",
      "obrk:10215 opar:10630 opf:120163 oplus:10798 otimes:10805 par:41 pargt:10644 ppolint:10770",
      "rarr:8649 saquo:8250 scr:120007 sh:8625 sqb:93 squo:8217 squor:8217 three:8908 times:8906",
      "tri:9657 trie:8885 trif:9656 triltri:10702 uluhar:10600 x:8478"]),
  ('s',
    ["acute:347 bquo:8218 c:8827 cE:10932 cap:10936 caron:353 ccue:8829 ce:10928 cedil:351",
      "circ:349 cnE:10934 cnap:10938 cnsim:8937 cpolint:10771 csim:8831 cy:1089 dot:8901",
      "dotb:8865 dote:10854 eArr:8664 earhk:10533 earr:8600 earrow:8600 ect:167 emi:59",
      "eswar:10537 etminus:8726 etmn:8726 ext:10038 fr:120112 frown:8994 harp:9839 hchcy:1097",
      "hcy:1096 hortmid:8739 hortparallel:8741 hy:173 igma:963 igmaf:962 igmav:962 im:8764",
      "imdot:10858 ime:8771 imeq:8771 img:10910 imgE:10912 iml:10909 imlE:10911 imne:8774",
      "implus:10788 imrarr:10610 larr:8592 mallsetminus:8726 mashp:10803 meparsl:10724 mid:8739",
      "mile:8995 mt:10922 mte:10924 mtes:10924+65024 oftcy:1100 ol:47 olb:10692 olbar:9023",
      "opf:120164 pades:9824 padesuit:9824 par:8741 qcap:8851 qcaps:8851+65024 qcup:8852",
      "qcups:8852+65024 qsub:8847 qsube:8849 qsubset:8847 qsubseteq:8849 qsup:8848 qsupe:8850",
      "qsupset:8848 qsupseteq:8850 qu:9633 quare:9633 quarf:9642 quf:9642 rarr:8594 scr:120008",
      "setmn:8726 smile:8995 starf:8902 tar:9734 tarf:9733 traightepsilon:1013 traightphi:981",
      "trns:175 ub:8834 ubE:10949 ubdot:10941 ube:8838 ubedot:10947 ubmult:10945 ubnE:10955",
      "ubne:8842 ubplus:10943 ubrarr:10617 ubset:8834 ubseteq:8838 ubseteqq:10949 ubsetneq:8842",
      "ubsetneqq:10955 ubsim:10951 ubsub:10965 ubsup:10963 ucc:8827 uccapprox:10936",
      "ucccurlyeq:8829 ucceq:10928 uccnapprox:10938 uccneqq:10934 uccnsim:8937 uccsim:8831",
      "um:8721 ung:9834 up1:185 up2:178 up3:179 up:8835 upE:10950 updot:10942 updsub:10968",
      "upe:8839 upedot:10948 uphsol:10185 uphsub:10967 uplarr:10619 upmult:10946 upnE:10956",
      "upne:8843 upplus:10944 upset:8835 upseteq:8839 upseteqq:10950 upsetneq:8843",
      "upsetneqq:10956 upsim:10952 upsub:10964 upsup:10966 wArr:8665 warhk:10534 warr:8601",
      "warrow:8601 wnwar:10538 zlig:223"]),
  ('t',
    ["arget:8982 au:964 brk:9140 caron:357 cedil:355 cy:1090 dot:8411 elrec:8981 fr:120113",
      "here4:8756 herefore:8756 heta:952 hetasym:977 hetav:977 hickapprox:8776 hicksim:8764",
      "hinsp:8201 hkap:8776 hksim:8764 horn:254 ilde:732 imes:215 imesb:8864 imesbar:10801",
      "imesd:10800 int:8749 oea:10536 op:8868 opbot:9014 opcir:10993 opf:120165 opfork:10970",
      "osa:10537 prime:8244 rade:8482 riangle:9653 riangledown:9663 riangleleft:9667",
      "rianglelefteq:8884 riangleq:8796 riangleright:9657 rianglerighteq:8885 ridot:9708 rie:8796",
      "riminus:10810 riplus:10809 risb:10701 ritime:10811 rpezium:9186 scr:120009 scy:1094",
      "shcy:1115 strok:359 wixt:8812 woheadleftarrow:8606 woheadrightarrow:8608"]),
  ('u',
    ["Arr:8657 Har:10595 acute:250 arr:8593 brcy:1118 breve:365 circ:251 cy:1091 darr:8645",
      "dblac:369 dhar:10606 fisht:10622 fr:120114 grave:249 harl:8639 harr:8638 hblk:9600",
      "lcorn:8988 lcorner:8988 lcrop:8975 ltri:9720 macr:363 ml:168 ogon:371 opf:120166",
      "parrow:8593 pdownarrow:8597 pharpoonleft:8639 pharpoonright:8638 plus:8846 psi:965",
      "psih:978 psilon:965 puparrows:8648 rcorn:8989 rcorner:8989 rcrop:8974 ring:367 rtri:9721",
      "scr:120010 tdot:8944 tilde:361 tri:9653 trif:9652 uarr:8648 uml:252 wangle:10663"]),
  ('v',
    ["Arr:8661 Bar:10984 Barv:10985 Dash:8872 angrt:10652 arepsilon:1013 arkappa:1008",
      "arnothing:8709 arphi:981 arpi:982 arpropto:8733 arr:8597 arrho:1009 arsigma:962",
      "arsubsetneq:8842+65024 arsubsetneqq:10955+65024 arsupsetneq:8843+65024",
      "arsupsetneqq:10956+65024 artheta:977 artriangleleft:8882 artriangleright:8883 cy:1074",
      "dash:8866 ee:8744 eebar:8891 eeeq:8794 ellip:8942 erbar:124 ert:124 fr:120115 ltri:8882",
      "nsub:8834+8402 nsup:8835+8402 opf:120167 prop:8733 rtri:8883 scr:120011 subnE:10955+65024",
      "subne:8842+65024 supnE:10956+65024 supne:8843+65024 zigzag:10650"]),
  ('w',
    ["circ:373 edbar:10847 edge:8743 edgeq:8793 eierp:8472 fr:120116 opf:120168 p:8472 r:8768",
      "reath:8768 scr:120012"]),
  ('x',
    ["cap:8898 circ:9711 cup:8899 dtri:9661 fr:120117 hArr:10234 harr:10231 i:958 lArr:10232",
      "larr:10229 map:10236 nis:8955 odot:10752 opf:120169 oplus:10753 otime:10754 rArr:10233",
      "rarr:10230 scr:120013 sqcup:10758 uplus:10756 utri:9651 vee:8897 wedge:8896"]),
  ('y',
    ["acute:253 acy:1103 circ:375 cy:1099 en:165 fr:120118 icy:1111 opf:120170 scr:120014",
      "ucy:1102 uml:255"]),
  ('z',
    ["acute:378 caron:382 cy:1079 dot:380 eetrf:8488 eta:950 fr:120119 hcy:1078 igrarr:8669",
      "opf:120171 scr:120015 wj:8205 wnj:8204"])]

/-- The number that decimal digits write. -/
def decimalOf (digits : List Char) : Nat :=
  digits.foldl (fun n c ↦ n * 10 + (c.toNat - '0'.toNat)) 0

/-- The entry of a name in a line of the table. -/
def entryIn? (name : List Char) (line : String) : Option (List Char) :=
  (Text.splitOnChar ' ' line.toList).find? fun entry ↦ entry.takeWhile (· != ':') == name

/-- The characters a name of the table stands for, if it is one. -/
def listedCharacters? (name : List Char) : Option (List Char) :=
  match name with
  | initial :: rest => do
    let entry ← ((nameTable.lookup initial).getD []).findSome? (entryIn? rest)
    let numbers := Text.splitOnChar '+' ((entry.dropWhile (· != ':')).drop 1)
    pure (numbers.map fun digits ↦ Char.ofNat (decimalOf digits))
  | [] => none

/-- The characters a name stands for, if it is one. -/
def namedCharacters? (name : List Char) : Option (List Char) :=
  match markNames.lookup name with
  | some mark => some [mark]
  | none => listedCharacters? name

end Guidebook.Html
