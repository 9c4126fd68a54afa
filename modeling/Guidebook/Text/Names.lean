import Guidebook.Text.Case

/-!
# Names of characters

Characters by the names they have in the standard, as far as texts name them, and letters that count
as other letters in names.
-/

namespace Guidebook.Text

/-- Names of characters with their numbers. -/
def characterNames : List (String × Nat) :=
  [("SPACE", 0x20), ("EXCLAMATION MARK", 0x21), ("QUOTATION MARK", 0x22), ("NUMBER SIGN", 0x23),
    ("DOLLAR SIGN", 0x24), ("PERCENT SIGN", 0x25), ("AMPERSAND", 0x26), ("APOSTROPHE", 0x27),
    ("LEFT PARENTHESIS", 0x28), ("RIGHT PARENTHESIS", 0x29), ("ASTERISK", 0x2a),
    ("PLUS SIGN", 0x2b), ("COMMA", 0x2c), ("HYPHEN-MINUS", 0x2d), ("FULL STOP", 0x2e),
    ("SOLIDUS", 0x2f), ("DIGIT ZERO", 0x30), ("DIGIT ONE", 0x31), ("DIGIT TWO", 0x32),
    ("DIGIT THREE", 0x33), ("DIGIT FOUR", 0x34), ("DIGIT FIVE", 0x35), ("DIGIT SIX", 0x36),
    ("DIGIT SEVEN", 0x37), ("DIGIT EIGHT", 0x38), ("DIGIT NINE", 0x39), ("COLON", 0x3a),
    ("SEMICOLON", 0x3b), ("LESS-THAN SIGN", 0x3c), ("EQUALS SIGN", 0x3d),
    ("GREATER-THAN SIGN", 0x3e), ("QUESTION MARK", 0x3f), ("COMMERCIAL AT", 0x40),
    ("LATIN CAPITAL LETTER A", 0x41), ("LATIN CAPITAL LETTER B", 0x42),
    ("LATIN CAPITAL LETTER C", 0x43), ("LATIN CAPITAL LETTER D", 0x44),
    ("LATIN CAPITAL LETTER E", 0x45), ("LATIN CAPITAL LETTER F", 0x46),
    ("LATIN CAPITAL LETTER G", 0x47), ("LATIN CAPITAL LETTER H", 0x48),
    ("LATIN CAPITAL LETTER I", 0x49), ("LATIN CAPITAL LETTER J", 0x4a),
    ("LATIN CAPITAL LETTER K", 0x4b), ("LATIN CAPITAL LETTER L", 0x4c),
    ("LATIN CAPITAL LETTER M", 0x4d), ("LATIN CAPITAL LETTER N", 0x4e),
    ("LATIN CAPITAL LETTER O", 0x4f), ("LATIN CAPITAL LETTER P", 0x50),
    ("LATIN CAPITAL LETTER Q", 0x51), ("LATIN CAPITAL LETTER R", 0x52),
    ("LATIN CAPITAL LETTER S", 0x53), ("LATIN CAPITAL LETTER T", 0x54),
    ("LATIN CAPITAL LETTER U", 0x55), ("LATIN CAPITAL LETTER V", 0x56),
    ("LATIN CAPITAL LETTER W", 0x57), ("LATIN CAPITAL LETTER X", 0x58),
    ("LATIN CAPITAL LETTER Y", 0x59), ("LATIN CAPITAL LETTER Z", 0x5a),
    ("LEFT SQUARE BRACKET", 0x5b), ("REVERSE SOLIDUS", 0x5c), ("RIGHT SQUARE BRACKET", 0x5d),
    ("CIRCUMFLEX ACCENT", 0x5e), ("LOW LINE", 0x5f), ("GRAVE ACCENT", 0x60),
    ("LATIN SMALL LETTER A", 0x61), ("LATIN SMALL LETTER B", 0x62),
    ("LATIN SMALL LETTER C", 0x63), ("LATIN SMALL LETTER D", 0x64),
    ("LATIN SMALL LETTER E", 0x65), ("LATIN SMALL LETTER F", 0x66),
    ("LATIN SMALL LETTER G", 0x67), ("LATIN SMALL LETTER H", 0x68),
    ("LATIN SMALL LETTER I", 0x69), ("LATIN SMALL LETTER J", 0x6a),
    ("LATIN SMALL LETTER K", 0x6b), ("LATIN SMALL LETTER L", 0x6c),
    ("LATIN SMALL LETTER M", 0x6d), ("LATIN SMALL LETTER N", 0x6e),
    ("LATIN SMALL LETTER O", 0x6f), ("LATIN SMALL LETTER P", 0x70),
    ("LATIN SMALL LETTER Q", 0x71), ("LATIN SMALL LETTER R", 0x72),
    ("LATIN SMALL LETTER S", 0x73), ("LATIN SMALL LETTER T", 0x74),
    ("LATIN SMALL LETTER U", 0x75), ("LATIN SMALL LETTER V", 0x76),
    ("LATIN SMALL LETTER W", 0x77), ("LATIN SMALL LETTER X", 0x78),
    ("LATIN SMALL LETTER Y", 0x79), ("LATIN SMALL LETTER Z", 0x7a), ("LEFT CURLY BRACKET", 0x7b),
    ("VERTICAL LINE", 0x7c), ("RIGHT CURLY BRACKET", 0x7d), ("TILDE", 0x7e),
    ("NO-BREAK SPACE", 0xa0), ("INVERTED EXCLAMATION MARK", 0xa1), ("CENT SIGN", 0xa2),
    ("POUND SIGN", 0xa3), ("CURRENCY SIGN", 0xa4), ("YEN SIGN", 0xa5), ("BROKEN BAR", 0xa6),
    ("SECTION SIGN", 0xa7), ("DIAERESIS", 0xa8), ("COPYRIGHT SIGN", 0xa9),
    ("FEMININE ORDINAL INDICATOR", 0xaa), ("LEFT-POINTING DOUBLE ANGLE QUOTATION MARK", 0xab),
    ("NOT SIGN", 0xac), ("SOFT HYPHEN", 0xad), ("REGISTERED SIGN", 0xae), ("MACRON", 0xaf),
    ("DEGREE SIGN", 0xb0), ("PLUS-MINUS SIGN", 0xb1), ("SUPERSCRIPT TWO", 0xb2),
    ("SUPERSCRIPT THREE", 0xb3), ("ACUTE ACCENT", 0xb4), ("MICRO SIGN", 0xb5),
    ("PILCROW SIGN", 0xb6), ("MIDDLE DOT", 0xb7), ("CEDILLA", 0xb8), ("SUPERSCRIPT ONE", 0xb9),
    ("MASCULINE ORDINAL INDICATOR", 0xba), ("RIGHT-POINTING DOUBLE ANGLE QUOTATION MARK", 0xbb),
    ("VULGAR FRACTION ONE QUARTER", 0xbc), ("VULGAR FRACTION ONE HALF", 0xbd),
    ("VULGAR FRACTION THREE QUARTERS", 0xbe), ("INVERTED QUESTION MARK", 0xbf),
    ("LATIN CAPITAL LETTER A WITH GRAVE", 0xc0), ("LATIN CAPITAL LETTER A WITH ACUTE", 0xc1),
    ("LATIN CAPITAL LETTER A WITH CIRCUMFLEX", 0xc2),
    ("LATIN CAPITAL LETTER A WITH TILDE", 0xc3), ("LATIN CAPITAL LETTER A WITH DIAERESIS", 0xc4),
    ("LATIN CAPITAL LETTER A WITH RING ABOVE", 0xc5), ("LATIN CAPITAL LETTER AE", 0xc6),
    ("LATIN CAPITAL LETTER C WITH CEDILLA", 0xc7), ("LATIN CAPITAL LETTER E WITH GRAVE", 0xc8),
    ("LATIN CAPITAL LETTER E WITH ACUTE", 0xc9),
    ("LATIN CAPITAL LETTER E WITH CIRCUMFLEX", 0xca),
    ("LATIN CAPITAL LETTER E WITH DIAERESIS", 0xcb), ("LATIN CAPITAL LETTER I WITH GRAVE", 0xcc),
    ("LATIN CAPITAL LETTER I WITH ACUTE", 0xcd),
    ("LATIN CAPITAL LETTER I WITH CIRCUMFLEX", 0xce),
    ("LATIN CAPITAL LETTER I WITH DIAERESIS", 0xcf), ("LATIN CAPITAL LETTER ETH", 0xd0),
    ("LATIN CAPITAL LETTER N WITH TILDE", 0xd1), ("LATIN CAPITAL LETTER O WITH GRAVE", 0xd2),
    ("LATIN CAPITAL LETTER O WITH ACUTE", 0xd3),
    ("LATIN CAPITAL LETTER O WITH CIRCUMFLEX", 0xd4),
    ("LATIN CAPITAL LETTER O WITH TILDE", 0xd5), ("LATIN CAPITAL LETTER O WITH DIAERESIS", 0xd6),
    ("MULTIPLICATION SIGN", 0xd7), ("LATIN CAPITAL LETTER O WITH STROKE", 0xd8),
    ("LATIN CAPITAL LETTER U WITH GRAVE", 0xd9), ("LATIN CAPITAL LETTER U WITH ACUTE", 0xda),
    ("LATIN CAPITAL LETTER U WITH CIRCUMFLEX", 0xdb),
    ("LATIN CAPITAL LETTER U WITH DIAERESIS", 0xdc), ("LATIN CAPITAL LETTER Y WITH ACUTE", 0xdd),
    ("LATIN CAPITAL LETTER THORN", 0xde), ("LATIN SMALL LETTER SHARP S", 0xdf),
    ("LATIN SMALL LETTER A WITH GRAVE", 0xe0), ("LATIN SMALL LETTER A WITH ACUTE", 0xe1),
    ("LATIN SMALL LETTER A WITH CIRCUMFLEX", 0xe2), ("LATIN SMALL LETTER A WITH TILDE", 0xe3),
    ("LATIN SMALL LETTER A WITH DIAERESIS", 0xe4),
    ("LATIN SMALL LETTER A WITH RING ABOVE", 0xe5), ("LATIN SMALL LETTER AE", 0xe6),
    ("LATIN SMALL LETTER C WITH CEDILLA", 0xe7), ("LATIN SMALL LETTER E WITH GRAVE", 0xe8),
    ("LATIN SMALL LETTER E WITH ACUTE", 0xe9), ("LATIN SMALL LETTER E WITH CIRCUMFLEX", 0xea),
    ("LATIN SMALL LETTER E WITH DIAERESIS", 0xeb), ("LATIN SMALL LETTER I WITH GRAVE", 0xec),
    ("LATIN SMALL LETTER I WITH ACUTE", 0xed), ("LATIN SMALL LETTER I WITH CIRCUMFLEX", 0xee),
    ("LATIN SMALL LETTER I WITH DIAERESIS", 0xef), ("LATIN SMALL LETTER ETH", 0xf0),
    ("LATIN SMALL LETTER N WITH TILDE", 0xf1), ("LATIN SMALL LETTER O WITH GRAVE", 0xf2),
    ("LATIN SMALL LETTER O WITH ACUTE", 0xf3), ("LATIN SMALL LETTER O WITH CIRCUMFLEX", 0xf4),
    ("LATIN SMALL LETTER O WITH TILDE", 0xf5), ("LATIN SMALL LETTER O WITH DIAERESIS", 0xf6),
    ("DIVISION SIGN", 0xf7), ("LATIN SMALL LETTER O WITH STROKE", 0xf8),
    ("LATIN SMALL LETTER U WITH GRAVE", 0xf9), ("LATIN SMALL LETTER U WITH ACUTE", 0xfa),
    ("LATIN SMALL LETTER U WITH CIRCUMFLEX", 0xfb),
    ("LATIN SMALL LETTER U WITH DIAERESIS", 0xfc), ("LATIN SMALL LETTER Y WITH ACUTE", 0xfd),
    ("LATIN SMALL LETTER THORN", 0xfe), ("LATIN SMALL LETTER Y WITH DIAERESIS", 0xff),
    ("LATIN CAPITAL LIGATURE OE", 0x152), ("LATIN SMALL LIGATURE OE", 0x153),
    ("LATIN CAPITAL LETTER S WITH CARON", 0x160), ("LATIN SMALL LETTER S WITH CARON", 0x161),
    ("LATIN CAPITAL LETTER Y WITH DIAERESIS", 0x178),
    ("LATIN CAPITAL LETTER Z WITH CARON", 0x17d), ("LATIN SMALL LETTER Z WITH CARON", 0x17e),
    ("LATIN SMALL LETTER F WITH HOOK", 0x192), ("GREEK CAPITAL LETTER ALPHA", 0x391),
    ("GREEK CAPITAL LETTER BETA", 0x392), ("GREEK CAPITAL LETTER GAMMA", 0x393),
    ("GREEK CAPITAL LETTER DELTA", 0x394), ("GREEK CAPITAL LETTER EPSILON", 0x395),
    ("GREEK CAPITAL LETTER ZETA", 0x396), ("GREEK CAPITAL LETTER ETA", 0x397),
    ("GREEK CAPITAL LETTER THETA", 0x398), ("GREEK CAPITAL LETTER IOTA", 0x399),
    ("GREEK CAPITAL LETTER KAPPA", 0x39a), ("GREEK CAPITAL LETTER LAMDA", 0x39b),
    ("GREEK CAPITAL LETTER MU", 0x39c), ("GREEK CAPITAL LETTER NU", 0x39d),
    ("GREEK CAPITAL LETTER XI", 0x39e), ("GREEK CAPITAL LETTER OMICRON", 0x39f),
    ("GREEK CAPITAL LETTER PI", 0x3a0), ("GREEK CAPITAL LETTER RHO", 0x3a1),
    ("GREEK CAPITAL LETTER SIGMA", 0x3a3), ("GREEK CAPITAL LETTER TAU", 0x3a4),
    ("GREEK CAPITAL LETTER UPSILON", 0x3a5), ("GREEK CAPITAL LETTER PHI", 0x3a6),
    ("GREEK CAPITAL LETTER CHI", 0x3a7), ("GREEK CAPITAL LETTER PSI", 0x3a8),
    ("GREEK CAPITAL LETTER OMEGA", 0x3a9), ("GREEK SMALL LETTER ALPHA", 0x3b1),
    ("GREEK SMALL LETTER BETA", 0x3b2), ("GREEK SMALL LETTER GAMMA", 0x3b3),
    ("GREEK SMALL LETTER DELTA", 0x3b4), ("GREEK SMALL LETTER EPSILON", 0x3b5),
    ("GREEK SMALL LETTER ZETA", 0x3b6), ("GREEK SMALL LETTER ETA", 0x3b7),
    ("GREEK SMALL LETTER THETA", 0x3b8), ("GREEK SMALL LETTER IOTA", 0x3b9),
    ("GREEK SMALL LETTER KAPPA", 0x3ba), ("GREEK SMALL LETTER LAMDA", 0x3bb),
    ("GREEK SMALL LETTER MU", 0x3bc), ("GREEK SMALL LETTER NU", 0x3bd),
    ("GREEK SMALL LETTER XI", 0x3be), ("GREEK SMALL LETTER OMICRON", 0x3bf),
    ("GREEK SMALL LETTER PI", 0x3c0), ("GREEK SMALL LETTER RHO", 0x3c1),
    ("GREEK SMALL LETTER FINAL SIGMA", 0x3c2), ("GREEK SMALL LETTER SIGMA", 0x3c3),
    ("GREEK SMALL LETTER TAU", 0x3c4), ("GREEK SMALL LETTER UPSILON", 0x3c5),
    ("GREEK SMALL LETTER PHI", 0x3c6), ("GREEK SMALL LETTER CHI", 0x3c7),
    ("GREEK SMALL LETTER PSI", 0x3c8), ("GREEK SMALL LETTER OMEGA", 0x3c9),
    ("CYRILLIC CAPITAL LETTER IO", 0x401), ("CYRILLIC CAPITAL LETTER A", 0x410),
    ("CYRILLIC CAPITAL LETTER BE", 0x411), ("CYRILLIC CAPITAL LETTER VE", 0x412),
    ("CYRILLIC CAPITAL LETTER GHE", 0x413), ("CYRILLIC CAPITAL LETTER DE", 0x414),
    ("CYRILLIC CAPITAL LETTER IE", 0x415), ("CYRILLIC CAPITAL LETTER ZHE", 0x416),
    ("CYRILLIC CAPITAL LETTER ZE", 0x417), ("CYRILLIC CAPITAL LETTER I", 0x418),
    ("CYRILLIC CAPITAL LETTER SHORT I", 0x419), ("CYRILLIC CAPITAL LETTER KA", 0x41a),
    ("CYRILLIC CAPITAL LETTER EL", 0x41b), ("CYRILLIC CAPITAL LETTER EM", 0x41c),
    ("CYRILLIC CAPITAL LETTER EN", 0x41d), ("CYRILLIC CAPITAL LETTER O", 0x41e),
    ("CYRILLIC CAPITAL LETTER PE", 0x41f), ("CYRILLIC CAPITAL LETTER ER", 0x420),
    ("CYRILLIC CAPITAL LETTER ES", 0x421), ("CYRILLIC CAPITAL LETTER TE", 0x422),
    ("CYRILLIC CAPITAL LETTER U", 0x423), ("CYRILLIC CAPITAL LETTER EF", 0x424),
    ("CYRILLIC CAPITAL LETTER HA", 0x425), ("CYRILLIC CAPITAL LETTER TSE", 0x426),
    ("CYRILLIC CAPITAL LETTER CHE", 0x427), ("CYRILLIC CAPITAL LETTER SHA", 0x428),
    ("CYRILLIC CAPITAL LETTER SHCHA", 0x429), ("CYRILLIC CAPITAL LETTER HARD SIGN", 0x42a),
    ("CYRILLIC CAPITAL LETTER YERU", 0x42b), ("CYRILLIC CAPITAL LETTER SOFT SIGN", 0x42c),
    ("CYRILLIC CAPITAL LETTER E", 0x42d), ("CYRILLIC CAPITAL LETTER YU", 0x42e),
    ("CYRILLIC CAPITAL LETTER YA", 0x42f), ("CYRILLIC SMALL LETTER A", 0x430),
    ("CYRILLIC SMALL LETTER BE", 0x431), ("CYRILLIC SMALL LETTER VE", 0x432),
    ("CYRILLIC SMALL LETTER GHE", 0x433), ("CYRILLIC SMALL LETTER DE", 0x434),
    ("CYRILLIC SMALL LETTER IE", 0x435), ("CYRILLIC SMALL LETTER ZHE", 0x436),
    ("CYRILLIC SMALL LETTER ZE", 0x437), ("CYRILLIC SMALL LETTER I", 0x438),
    ("CYRILLIC SMALL LETTER SHORT I", 0x439), ("CYRILLIC SMALL LETTER KA", 0x43a),
    ("CYRILLIC SMALL LETTER EL", 0x43b), ("CYRILLIC SMALL LETTER EM", 0x43c),
    ("CYRILLIC SMALL LETTER EN", 0x43d), ("CYRILLIC SMALL LETTER O", 0x43e),
    ("CYRILLIC SMALL LETTER PE", 0x43f), ("CYRILLIC SMALL LETTER ER", 0x440),
    ("CYRILLIC SMALL LETTER ES", 0x441), ("CYRILLIC SMALL LETTER TE", 0x442),
    ("CYRILLIC SMALL LETTER U", 0x443), ("CYRILLIC SMALL LETTER EF", 0x444),
    ("CYRILLIC SMALL LETTER HA", 0x445), ("CYRILLIC SMALL LETTER TSE", 0x446),
    ("CYRILLIC SMALL LETTER CHE", 0x447), ("CYRILLIC SMALL LETTER SHA", 0x448),
    ("CYRILLIC SMALL LETTER SHCHA", 0x449), ("CYRILLIC SMALL LETTER HARD SIGN", 0x44a),
    ("CYRILLIC SMALL LETTER YERU", 0x44b), ("CYRILLIC SMALL LETTER SOFT SIGN", 0x44c),
    ("CYRILLIC SMALL LETTER E", 0x44d), ("CYRILLIC SMALL LETTER YU", 0x44e),
    ("CYRILLIC SMALL LETTER YA", 0x44f), ("CYRILLIC SMALL LETTER IO", 0x451),
    ("EN SPACE", 0x2002), ("EM SPACE", 0x2003), ("THREE-PER-EM SPACE", 0x2004),
    ("FOUR-PER-EM SPACE", 0x2005), ("SIX-PER-EM SPACE", 0x2006), ("FIGURE SPACE", 0x2007),
    ("PUNCTUATION SPACE", 0x2008), ("THIN SPACE", 0x2009), ("HAIR SPACE", 0x200a),
    ("ZERO WIDTH SPACE", 0x200b), ("ZERO WIDTH NON-JOINER", 0x200c),
    ("ZERO WIDTH JOINER", 0x200d), ("LEFT-TO-RIGHT MARK", 0x200e),
    ("RIGHT-TO-LEFT MARK", 0x200f), ("HYPHEN", 0x2010), ("NON-BREAKING HYPHEN", 0x2011),
    ("FIGURE DASH", 0x2012), ("EN DASH", 0x2013), ("EM DASH", 0x2014),
    ("HORIZONTAL BAR", 0x2015), ("DOUBLE VERTICAL LINE", 0x2016), ("DOUBLE LOW LINE", 0x2017),
    ("LEFT SINGLE QUOTATION MARK", 0x2018), ("RIGHT SINGLE QUOTATION MARK", 0x2019),
    ("SINGLE LOW-9 QUOTATION MARK", 0x201a), ("SINGLE HIGH-REVERSED-9 QUOTATION MARK", 0x201b),
    ("LEFT DOUBLE QUOTATION MARK", 0x201c), ("RIGHT DOUBLE QUOTATION MARK", 0x201d),
    ("DOUBLE LOW-9 QUOTATION MARK", 0x201e), ("DOUBLE HIGH-REVERSED-9 QUOTATION MARK", 0x201f),
    ("DAGGER", 0x2020), ("DOUBLE DAGGER", 0x2021), ("BULLET", 0x2022),
    ("TRIANGULAR BULLET", 0x2023), ("ONE DOT LEADER", 0x2024), ("TWO DOT LEADER", 0x2025),
    ("HORIZONTAL ELLIPSIS", 0x2026), ("HYPHENATION POINT", 0x2027), ("LINE SEPARATOR", 0x2028),
    ("PARAGRAPH SEPARATOR", 0x2029), ("NARROW NO-BREAK SPACE", 0x202f),
    ("PER MILLE SIGN", 0x2030), ("PRIME", 0x2032), ("DOUBLE PRIME", 0x2033),
    ("SINGLE LEFT-POINTING ANGLE QUOTATION MARK", 0x2039),
    ("SINGLE RIGHT-POINTING ANGLE QUOTATION MARK", 0x203a), ("DOUBLE EXCLAMATION MARK", 0x203c),
    ("INTERROBANG", 0x203d), ("FRACTION SLASH", 0x2044), ("EURO SIGN", 0x20ac),
    ("DEGREE CELSIUS", 0x2103), ("NUMERO SIGN", 0x2116), ("SOUND RECORDING COPYRIGHT", 0x2117),
    ("TRADE MARK SIGN", 0x2122), ("OHM SIGN", 0x2126), ("VULGAR FRACTION ONE THIRD", 0x2153),
    ("VULGAR FRACTION TWO THIRDS", 0x2154), ("VULGAR FRACTION ONE EIGHTH", 0x215b),
    ("VULGAR FRACTION THREE EIGHTHS", 0x215c), ("VULGAR FRACTION FIVE EIGHTHS", 0x215d),
    ("VULGAR FRACTION SEVEN EIGHTHS", 0x215e), ("LEFTWARDS ARROW", 0x2190),
    ("UPWARDS ARROW", 0x2191), ("RIGHTWARDS ARROW", 0x2192), ("DOWNWARDS ARROW", 0x2193),
    ("LEFT RIGHT ARROW", 0x2194), ("UP DOWN ARROW", 0x2195), ("NORTH WEST ARROW", 0x2196),
    ("NORTH EAST ARROW", 0x2197), ("SOUTH EAST ARROW", 0x2198), ("SOUTH WEST ARROW", 0x2199),
    ("LEFTWARDS DOUBLE ARROW", 0x21d0), ("UPWARDS DOUBLE ARROW", 0x21d1),
    ("RIGHTWARDS DOUBLE ARROW", 0x21d2), ("DOWNWARDS DOUBLE ARROW", 0x21d3),
    ("LEFT RIGHT DOUBLE ARROW", 0x21d4), ("FOR ALL", 0x2200), ("COMPLEMENT", 0x2201),
    ("PARTIAL DIFFERENTIAL", 0x2202), ("THERE EXISTS", 0x2203), ("THERE DOES NOT EXIST", 0x2204),
    ("EMPTY SET", 0x2205), ("INCREMENT", 0x2206), ("NABLA", 0x2207), ("ELEMENT OF", 0x2208),
    ("NOT AN ELEMENT OF", 0x2209), ("SMALL ELEMENT OF", 0x220a), ("CONTAINS AS MEMBER", 0x220b),
    ("DOES NOT CONTAIN AS MEMBER", 0x220c), ("SMALL CONTAINS AS MEMBER", 0x220d),
    ("END OF PROOF", 0x220e), ("N-ARY PRODUCT", 0x220f), ("N-ARY SUMMATION", 0x2211),
    ("MINUS SIGN", 0x2212), ("MINUS-OR-PLUS SIGN", 0x2213), ("ASTERISK OPERATOR", 0x2217),
    ("RING OPERATOR", 0x2218), ("BULLET OPERATOR", 0x2219), ("SQUARE ROOT", 0x221a),
    ("CUBE ROOT", 0x221b), ("FOURTH ROOT", 0x221c), ("PROPORTIONAL TO", 0x221d),
    ("INFINITY", 0x221e), ("LOGICAL AND", 0x2227), ("LOGICAL OR", 0x2228),
    ("INTERSECTION", 0x2229), ("UNION", 0x222a), ("INTEGRAL", 0x222b),
    ("ALMOST EQUAL TO", 0x2248), ("NOT EQUAL TO", 0x2260), ("IDENTICAL TO", 0x2261),
    ("LESS-THAN OR EQUAL TO", 0x2264), ("GREATER-THAN OR EQUAL TO", 0x2265),
    ("SUBSET OF", 0x2282), ("SUPERSET OF", 0x2283), ("NOT A SUBSET OF", 0x2284),
    ("NOT A SUPERSET OF", 0x2285), ("SUBSET OF OR EQUAL TO", 0x2286),
    ("SUPERSET OF OR EQUAL TO", 0x2287), ("PLACE OF INTEREST SIGN", 0x2318),
    ("RETURN SYMBOL", 0x23ce), ("BOX DRAWINGS LIGHT HORIZONTAL", 0x2500),
    ("BOX DRAWINGS HEAVY HORIZONTAL", 0x2501), ("BOX DRAWINGS LIGHT VERTICAL", 0x2502),
    ("FULL BLOCK", 0x2588), ("BLACK SQUARE", 0x25a0), ("WHITE SQUARE", 0x25a1),
    ("BLACK SMALL SQUARE", 0x25aa), ("WHITE SMALL SQUARE", 0x25ab),
    ("BLACK UP-POINTING TRIANGLE", 0x25b2), ("WHITE UP-POINTING TRIANGLE", 0x25b3),
    ("BLACK RIGHT-POINTING TRIANGLE", 0x25b6), ("WHITE RIGHT-POINTING TRIANGLE", 0x25b7),
    ("BLACK DOWN-POINTING TRIANGLE", 0x25bc), ("WHITE DOWN-POINTING TRIANGLE", 0x25bd),
    ("BLACK DIAMOND", 0x25c6), ("WHITE DIAMOND", 0x25c7), ("WHITE CIRCLE", 0x25cb),
    ("BLACK CIRCLE", 0x25cf), ("BLACK SUN WITH RAYS", 0x2600), ("CLOUD", 0x2601),
    ("UMBRELLA", 0x2602), ("SNOWMAN", 0x2603), ("COMET", 0x2604), ("BLACK STAR", 0x2605),
    ("WHITE STAR", 0x2606), ("BLACK TELEPHONE", 0x260e), ("BALLOT BOX", 0x2610),
    ("BALLOT BOX WITH CHECK", 0x2611), ("BALLOT BOX WITH X", 0x2612),
    ("SKULL AND CROSSBONES", 0x2620), ("WHITE FROWNING FACE", 0x2639),
    ("WHITE SMILING FACE", 0x263a), ("BLACK SMILING FACE", 0x263b), ("BLACK SPADE SUIT", 0x2660),
    ("WHITE HEART SUIT", 0x2661), ("WHITE DIAMOND SUIT", 0x2662), ("BLACK CLUB SUIT", 0x2663),
    ("WHITE SPADE SUIT", 0x2664), ("BLACK HEART SUIT", 0x2665), ("BLACK DIAMOND SUIT", 0x2666),
    ("WHITE CLUB SUIT", 0x2667), ("EIGHTH NOTE", 0x266a), ("BEAMED EIGHTH NOTES", 0x266b),
    ("BEAMED SIXTEENTH NOTES", 0x266c), ("MUSIC FLAT SIGN", 0x266d),
    ("MUSIC NATURAL SIGN", 0x266e), ("MUSIC SHARP SIGN", 0x266f), ("WARNING SIGN", 0x26a0),
    ("HIGH VOLTAGE SIGN", 0x26a1), ("CHECK MARK", 0x2713), ("HEAVY CHECK MARK", 0x2714),
    ("MULTIPLICATION X", 0x2715), ("HEAVY MULTIPLICATION X", 0x2716), ("BALLOT X", 0x2717),
    ("HEAVY BALLOT X", 0x2718), ("SPARKLES", 0x2728), ("HEAVY BLACK HEART", 0x2764),
    ("IDEOGRAPHIC SPACE", 0x3000), ("IDEOGRAPHIC COMMA", 0x3001),
    ("IDEOGRAPHIC FULL STOP", 0x3002), ("ZERO WIDTH NO-BREAK SPACE", 0xfeff),
    ("REPLACEMENT CHARACTER", 0xfffd), ("SNAKE", 0x1f40d), ("THUMBS UP SIGN", 0x1f44d),
    ("THUMBS DOWN SIGN", 0x1f44e), ("PILE OF POO", 0x1f4a9), ("FIRE", 0x1f525),
    ("GRINNING FACE", 0x1f600), ("GRINNING FACE WITH SMILING EYES", 0x1f601),
    ("FACE WITH TEARS OF JOY", 0x1f602), ("SMILING FACE WITH OPEN MOUTH", 0x1f603),
    ("SMILING FACE WITH OPEN MOUTH AND SMILING EYES", 0x1f604),
    ("SMILING FACE WITH OPEN MOUTH AND COLD SWEAT", 0x1f605),
    ("SMILING FACE WITH OPEN MOUTH AND TIGHTLY-CLOSED EYES", 0x1f606),
    ("SMILING FACE WITH HALO", 0x1f607), ("SMILING FACE WITH HORNS", 0x1f608),
    ("WINKING FACE", 0x1f609), ("SMILING FACE WITH SMILING EYES", 0x1f60a),
    ("FACE SAVOURING DELICIOUS FOOD", 0x1f60b), ("RELIEVED FACE", 0x1f60c),
    ("SMILING FACE WITH HEART-SHAPED EYES", 0x1f60d), ("SMILING FACE WITH SUNGLASSES", 0x1f60e),
    ("SMIRKING FACE", 0x1f60f), ("ROCKET", 0x1f680), ("NULL", 0x0), ("LINE FEED", 0xa),
    ("NEW LINE", 0xa), ("CARRIAGE RETURN", 0xd), ("CHARACTER TABULATION", 0x9), ("TAB", 0x9),
    ("ESCAPE", 0x1b), ("NBSP", 0xa0), ("ZWSP", 0x200b), ("ZWNJ", 0x200c), ("ZWJ", 0x200d),
    ("LRM", 0x200e), ("RLM", 0x200f), ("SHY", 0xad), ("BOM", 0xfeff)]

/-- The character of a name. The case of its letters does not matter. -/
def characterNamed? (name : String) : Option Char :=
  (characterNames.lookup (upper name)).map Char.ofNat

/-- Letters that count as other letters. -/
def sameLetters : List (Nat × Char) :=
  [(0xaa, 'a'), (0xb5, 'μ'), (0xba, 'o'), (0x17f, 's'), (0x3d0, 'β'), (0x3d1, 'θ'), (0x3d5, 'φ'),
    (0x3d6, 'π'), (0x3f0, 'κ'), (0x3f1, 'ρ'), (0x3f5, 'ε'), (0x210e, 'h'), (0x2113, 'l'),
    (0x2126, 'Ω'), (0x212a, 'K'), (0x212b, 'Å')]

/-- The letter a letter counts as in a name; wide letters count as narrow ones. -/
def composed (c : Char) : Char :=
  let n := c.toNat
  if n < 0x80 then c
  else if 0xff01 ≤ n && n ≤ 0xff5e then Char.ofNat (n - 0xfee0)
  else (sameLetters.lookup n).getD c

end Guidebook.Text
