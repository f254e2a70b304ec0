import LetLang.Text.Ranges
import LetLang.Text.Word
import LetLang.Text.Number

/-!
# Visible characters

A character is visible when quoted text can show it as it is: it has a form of its own on the
page.  Controls, format characters, surrogates, private use, unassigned code points and every
space but U+0020 have none.  Neither has a character with the property Default_Ignorable_Code_Point,
such as a filler of Hangul, and a mark with the property Grapheme_Extend, such as a combining
accent, changes the character before it.

The classes are those of version 17.0 of the standard.  Word and number characters, which keep to
version 16.0, are visible, but for the fillers among the letters.  The rest are in a table of
their own.
-/

namespace LetLang
namespace Text

/-- Visible characters outside words and numbers: the space, punctuation, the operator symbols,
the marks that do not extend a grapheme, and the letters, numbers and symbols that are new in
version 17.0. -/
def otherVisibleRanges : Ranges :=
  [
    (0x20, 0x23), (0x25, 0x2F), (0x3A, 0x40), (0x5B, 0x5D), (0x7B, 0x7B), (0x7D, 0x7D),
    (0xA1, 0xA1), (0xA7, 0xA7), (0xAB, 0xAB), (0xB6, 0xB7), (0xBB, 0xBB), (0xBF, 0xBF),
    (0x37E, 0x37E), (0x387, 0x387), (0x55A, 0x55F), (0x589, 0x58A), (0x5BE, 0x5BE),
    (0x5C0, 0x5C0), (0x5C3, 0x5C3), (0x5C6, 0x5C6), (0x5F3, 0x5F4), (0x609, 0x60A),
    (0x60C, 0x60D), (0x61B, 0x61B), (0x61D, 0x61F), (0x66A, 0x66D), (0x6D4, 0x6D4),
    (0x700, 0x70D), (0x7F7, 0x7F9), (0x830, 0x83E), (0x85E, 0x85E), (0x88F, 0x88F),
    (0x903, 0x903), (0x93B, 0x93B), (0x93E, 0x940), (0x949, 0x94C), (0x94E, 0x94F),
    (0x964, 0x965), (0x970, 0x970), (0x982, 0x983), (0x9BF, 0x9C0), (0x9C7, 0x9C8),
    (0x9CB, 0x9CC), (0x9FD, 0x9FD), (0xA03, 0xA03), (0xA3E, 0xA40), (0xA76, 0xA76),
    (0xA83, 0xA83), (0xABE, 0xAC0), (0xAC9, 0xAC9), (0xACB, 0xACC), (0xAF0, 0xAF0),
    (0xB02, 0xB03), (0xB40, 0xB40), (0xB47, 0xB48), (0xB4B, 0xB4C), (0xBBF, 0xBBF),
    (0xBC1, 0xBC2), (0xBC6, 0xBC8), (0xBCA, 0xBCC), (0xC01, 0xC03), (0xC41, 0xC44),
    (0xC5C, 0xC5C), (0xC77, 0xC77), (0xC82, 0xC84), (0xCBE, 0xCBE), (0xCC1, 0xCC1),
    (0xCC3, 0xCC4), (0xCDC, 0xCDC), (0xCF3, 0xCF3), (0xD02, 0xD03), (0xD3F, 0xD40),
    (0xD46, 0xD48), (0xD4A, 0xD4C), (0xD82, 0xD83), (0xDD0, 0xDD1), (0xDD8, 0xDDE),
    (0xDF2, 0xDF4), (0xE4F, 0xE4F), (0xE5A, 0xE5B), (0xF04, 0xF12), (0xF14, 0xF14),
    (0xF3A, 0xF3F), (0xF7F, 0xF7F), (0xF85, 0xF85), (0xFD0, 0xFD4), (0xFD9, 0xFDA),
    (0x102B, 0x102C), (0x1031, 0x1031), (0x1038, 0x1038), (0x103B, 0x103C), (0x104A, 0x104F),
    (0x1056, 0x1057), (0x1062, 0x1064), (0x1067, 0x106D), (0x1083, 0x1084), (0x1087, 0x108C),
    (0x108F, 0x108F), (0x109A, 0x109C), (0x10FB, 0x10FB), (0x1360, 0x1368), (0x1400, 0x1400),
    (0x166E, 0x166E), (0x169B, 0x169C), (0x16EB, 0x16ED), (0x1735, 0x1736), (0x17B6, 0x17B6),
    (0x17BE, 0x17C5), (0x17C7, 0x17C8), (0x17D4, 0x17D6), (0x17D8, 0x17DA), (0x1800, 0x180A),
    (0x1923, 0x1926), (0x1929, 0x192B), (0x1930, 0x1931), (0x1933, 0x1938), (0x1944, 0x1945),
    (0x1A19, 0x1A1A), (0x1A1E, 0x1A1F), (0x1A55, 0x1A55), (0x1A57, 0x1A57), (0x1A61, 0x1A61),
    (0x1A63, 0x1A64), (0x1A6D, 0x1A72), (0x1AA0, 0x1AA6), (0x1AA8, 0x1AAD), (0x1B04, 0x1B04),
    (0x1B3E, 0x1B41), (0x1B4E, 0x1B4F), (0x1B5A, 0x1B60), (0x1B7D, 0x1B7F), (0x1B82, 0x1B82),
    (0x1BA1, 0x1BA1), (0x1BA6, 0x1BA7), (0x1BE7, 0x1BE7), (0x1BEA, 0x1BEC), (0x1BEE, 0x1BEE),
    (0x1BFC, 0x1BFF), (0x1C24, 0x1C2B), (0x1C34, 0x1C35), (0x1C3B, 0x1C3F), (0x1C7E, 0x1C7F),
    (0x1CC0, 0x1CC7), (0x1CD3, 0x1CD3), (0x1CE1, 0x1CE1), (0x1CF7, 0x1CF7), (0x2010, 0x2027),
    (0x2030, 0x2043), (0x2045, 0x2051), (0x2053, 0x205E), (0x207D, 0x207E), (0x208D, 0x208E),
    (0x20C1, 0x20C1), (0x2308, 0x230B), (0x2329, 0x232A), (0x2768, 0x2775), (0x27C5, 0x27C6),
    (0x27E6, 0x27EF), (0x2983, 0x2998), (0x29D8, 0x29DB), (0x29FC, 0x29FD), (0x2B96, 0x2B96),
    (0x2CF9, 0x2CFC), (0x2CFE, 0x2CFF), (0x2D70, 0x2D70), (0x2E00, 0x2E2E), (0x2E30, 0x2E4F),
    (0x2E52, 0x2E5D), (0x3001, 0x3003), (0x3008, 0x3011), (0x3014, 0x301F), (0x3030, 0x3030),
    (0x303D, 0x303D), (0x30A0, 0x30A0), (0x30FB, 0x30FB), (0xA4FE, 0xA4FF), (0xA60D, 0xA60F),
    (0xA673, 0xA673), (0xA67E, 0xA67E), (0xA6F2, 0xA6F7), (0xA7CE, 0xA7CF), (0xA7D2, 0xA7D2),
    (0xA7D4, 0xA7D4), (0xA7F1, 0xA7F1), (0xA823, 0xA824), (0xA827, 0xA827), (0xA874, 0xA877),
    (0xA880, 0xA881), (0xA8B4, 0xA8C3), (0xA8CE, 0xA8CF), (0xA8F8, 0xA8FA), (0xA8FC, 0xA8FC),
    (0xA92E, 0xA92F), (0xA952, 0xA952), (0xA95F, 0xA95F), (0xA983, 0xA983), (0xA9B4, 0xA9B5),
    (0xA9BA, 0xA9BB), (0xA9BE, 0xA9BF), (0xA9C1, 0xA9CD), (0xA9DE, 0xA9DF), (0xAA2F, 0xAA30),
    (0xAA33, 0xAA34), (0xAA4D, 0xAA4D), (0xAA5C, 0xAA5F), (0xAA7B, 0xAA7B), (0xAA7D, 0xAA7D),
    (0xAADE, 0xAADF), (0xAAEB, 0xAAEB), (0xAAEE, 0xAAF1), (0xAAF5, 0xAAF5), (0xABE3, 0xABE4),
    (0xABE6, 0xABE7), (0xABE9, 0xABEC), (0xFBC3, 0xFBD2), (0xFD3E, 0xFD3F), (0xFD90, 0xFD91),
    (0xFDC8, 0xFDCE), (0xFE10, 0xFE19), (0xFE30, 0xFE52), (0xFE54, 0xFE61), (0xFE63, 0xFE63),
    (0xFE68, 0xFE68), (0xFE6A, 0xFE6B), (0xFF01, 0xFF03), (0xFF05, 0xFF0A), (0xFF0C, 0xFF0F),
    (0xFF1A, 0xFF1B), (0xFF1F, 0xFF20), (0xFF3B, 0xFF3D), (0xFF3F, 0xFF3F), (0xFF5B, 0xFF5B),
    (0xFF5D, 0xFF5D), (0xFF5F, 0xFF65), (0x10100, 0x10102), (0x1039F, 0x1039F),
    (0x103D0, 0x103D0), (0x1056F, 0x1056F), (0x10857, 0x10857), (0x1091F, 0x1091F),
    (0x1093F, 0x10959), (0x10A50, 0x10A58), (0x10A7F, 0x10A7F), (0x10AF0, 0x10AF6),
    (0x10B39, 0x10B3F), (0x10B99, 0x10B9C), (0x10D6E, 0x10D6E), (0x10EAD, 0x10EAD),
    (0x10EC5, 0x10EC7), (0x10ED0, 0x10ED8), (0x10F55, 0x10F59), (0x10F86, 0x10F89),
    (0x11000, 0x11000), (0x11002, 0x11002), (0x11047, 0x1104D), (0x11082, 0x11082),
    (0x110B0, 0x110B2), (0x110B7, 0x110B8), (0x110BB, 0x110BC), (0x110BE, 0x110C1),
    (0x1112C, 0x1112C), (0x11140, 0x11143), (0x11145, 0x11146), (0x11174, 0x11175),
    (0x11182, 0x11182), (0x111B3, 0x111B5), (0x111BF, 0x111BF), (0x111C5, 0x111C8),
    (0x111CD, 0x111CE), (0x111DB, 0x111DB), (0x111DD, 0x111DF), (0x1122C, 0x1122E),
    (0x11232, 0x11233), (0x11238, 0x1123D), (0x112A9, 0x112A9), (0x112E0, 0x112E2),
    (0x11302, 0x11303), (0x1133F, 0x1133F), (0x11341, 0x11344), (0x11347, 0x11348),
    (0x1134B, 0x1134C), (0x11362, 0x11363), (0x113B9, 0x113BA), (0x113CA, 0x113CA),
    (0x113CC, 0x113CD), (0x113D4, 0x113D5), (0x113D7, 0x113D8), (0x11435, 0x11437),
    (0x11440, 0x11441), (0x11445, 0x11445), (0x1144B, 0x1144F), (0x1145A, 0x1145B),
    (0x1145D, 0x1145D), (0x114B1, 0x114B2), (0x114B9, 0x114B9), (0x114BB, 0x114BC),
    (0x114BE, 0x114BE), (0x114C1, 0x114C1), (0x114C6, 0x114C6), (0x115B0, 0x115B1),
    (0x115B8, 0x115BB), (0x115BE, 0x115BE), (0x115C1, 0x115D7), (0x11630, 0x11632),
    (0x1163B, 0x1163C), (0x1163E, 0x1163E), (0x11641, 0x11643), (0x11660, 0x1166C),
    (0x116AC, 0x116AC), (0x116AE, 0x116AF), (0x116B9, 0x116B9), (0x1171E, 0x1171E),
    (0x11720, 0x11721), (0x11726, 0x11726), (0x1173C, 0x1173E), (0x1182C, 0x1182E),
    (0x11838, 0x11838), (0x1183B, 0x1183B), (0x11931, 0x11935), (0x11937, 0x11938),
    (0x11940, 0x11940), (0x11942, 0x11942), (0x11944, 0x11946), (0x119D1, 0x119D3),
    (0x119DC, 0x119DF), (0x119E2, 0x119E2), (0x119E4, 0x119E4), (0x11A39, 0x11A39),
    (0x11A3F, 0x11A46), (0x11A57, 0x11A58), (0x11A97, 0x11A97), (0x11A9A, 0x11A9C),
    (0x11A9E, 0x11AA2), (0x11B00, 0x11B09), (0x11B61, 0x11B61), (0x11B65, 0x11B65),
    (0x11B67, 0x11B67), (0x11BE1, 0x11BE1), (0x11C2F, 0x11C2F), (0x11C3E, 0x11C3E),
    (0x11C41, 0x11C45), (0x11C70, 0x11C71), (0x11CA9, 0x11CA9), (0x11CB1, 0x11CB1),
    (0x11CB4, 0x11CB4), (0x11D8A, 0x11D8E), (0x11D93, 0x11D94), (0x11D96, 0x11D96),
    (0x11DB0, 0x11DDB), (0x11DE0, 0x11DE9), (0x11EF5, 0x11EF8), (0x11F03, 0x11F03),
    (0x11F34, 0x11F35), (0x11F3E, 0x11F3F), (0x11F43, 0x11F4F), (0x11FFF, 0x11FFF),
    (0x12470, 0x12474), (0x12FF1, 0x12FF2), (0x1612A, 0x1612C), (0x16A6E, 0x16A6F),
    (0x16AF5, 0x16AF5), (0x16B37, 0x16B3B), (0x16B44, 0x16B44), (0x16D6D, 0x16D6F),
    (0x16E97, 0x16E9A), (0x16EA0, 0x16EB8), (0x16EBB, 0x16ED3), (0x16F51, 0x16F87),
    (0x16FE2, 0x16FE2), (0x16FF2, 0x16FF6), (0x187F8, 0x187FF), (0x18D09, 0x18D1E),
    (0x18D80, 0x18DF2), (0x1BC9F, 0x1BC9F), (0x1CCFA, 0x1CCFC), (0x1CEBA, 0x1CED0),
    (0x1CEE0, 0x1CEF0), (0x1DA87, 0x1DA8B), (0x1E5FF, 0x1E5FF), (0x1E6C0, 0x1E6DE),
    (0x1E6E0, 0x1E6E2), (0x1E6E4, 0x1E6E5), (0x1E6E7, 0x1E6ED), (0x1E6F0, 0x1E6F4),
    (0x1E6FE, 0x1E6FF), (0x1E95E, 0x1E95F), (0x1F6D8, 0x1F6D8), (0x1F777, 0x1F77A),
    (0x1F8D0, 0x1F8D8), (0x1FA54, 0x1FA57), (0x1FA8A, 0x1FA8A), (0x1FA8E, 0x1FA8E),
    (0x1FAC8, 0x1FAC8), (0x1FACD, 0x1FACD), (0x1FAEA, 0x1FAEA), (0x1FAEF, 0x1FAEF),
    (0x1FBFA, 0x1FBFA), (0x2B73A, 0x2B73F), (0x2CEA2, 0x2CEAD), (0x323B0, 0x33479)
  ]

/-- Word characters that take the place of a letter and show nothing. -/
def fillerRanges : Ranges :=
  [
    (0x115F, 0x1160), (0x3164, 0x3164), (0xFFA0, 0xFFA0)
  ]

/-- A character that quoted text shows as it is. -/
def isVisible (c : Char) : Bool :=
  otherVisibleRanges.contains c ||
    ((isWord c || isNumber c) && !fillerRanges.contains c)

end Text
end LetLang
