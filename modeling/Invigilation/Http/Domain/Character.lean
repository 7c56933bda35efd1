import Invigilation.Text.Mark
import Invigilation.Text.Unprintable

/-!
# Characters in domains

Before a domain is looked at, each of its characters is kept, dropped or replaced: capitals by small
letters, and other forms of a character by the usual one. Some characters make a domain malformed.
The tables are those of Unicode's processing of domain names.

- `Fate`, `fate`: what becomes of a character.

Whether a domain is well formed rarely depends on what a character outside ASCII is replaced by.
Where it does not, the character stands for its replacement.
-/

namespace Invigilation.Http.Domain

open Text (inRanges)

/-- What becomes of a character of a domain. -/
inductive Fate where
  | kept
  | dropped
  | replaced (cs : List Char)
  /-- It makes the domain malformed. -/
  | refused
  deriving DecidableEq, Repr

/-- The characters that are dropped: soft hyphens, fillers and selectors of variants. -/
def droppedRanges : List (Nat × Nat) := [
    (0xAD, 0xAD), (0x34F, 0x34F), (0x115F, 0x1160), (0x17B4, 0x17B5), (0x180B, 0x180F),
    (0x200B, 0x200B), (0x2060, 0x2064), (0x206A, 0x206F), (0x3164, 0x3164), (0xFE00, 0xFE0F),
    (0xFEFF, 0xFEFF), (0xFFA0, 0xFFA0), (0x1BCA0, 0x1BCA3), (0x1D173, 0x1D17A), (0xE0100, 0xE01EF)
  ]

/-- The characters that are shown and yet refused: those whose replacement has a blank, a dot or
another character that no domain holds, and those that describe other characters. -/
def refusedRanges : List (Nat × Nat) := [
    (0xA8, 0xA8), (0xAF, 0xAF), (0xB4, 0xB4), (0xB8, 0xB8), (0x2D8, 0x2DD), (0x37A, 0x37A),
    (0x384, 0x385), (0x1FBD, 0x1FBD), (0x1FBF, 0x1FC1), (0x1FCD, 0x1FCF), (0x1FDD, 0x1FDF),
    (0x1FED, 0x1FEE), (0x1FFD, 0x1FFE), (0x2017, 0x2017), (0x2024, 0x2026), (0x203E, 0x203E),
    (0x2047, 0x2049), (0x2100, 0x2101), (0x2105, 0x2106), (0x2488, 0x249B), (0x2A74, 0x2A74),
    (0x2FF0, 0x2FFF), (0x309B, 0x309C), (0x31EF, 0x31EF), (0x33C2, 0x33C2), (0x33C7, 0x33C7),
    (0x33D8, 0x33D8), (0xFC5E, 0xFC63), (0xFDFA, 0xFDFB), (0xFE12, 0xFE12), (0xFE19, 0xFE19),
    (0xFE30, 0xFE30), (0xFE49, 0xFE4C), (0xFE52, 0xFE52), (0xFE70, 0xFE70), (0xFE72, 0xFE72),
    (0xFE74, 0xFE74), (0xFE76, 0xFE76), (0xFE78, 0xFE78), (0xFE7A, 0xFE7A), (0xFE7C, 0xFE7C),
    (0xFE7E, 0xFE7E), (0xFFE3, 0xFFE3), (0xFFFC, 0xFFFD), (0x1F100, 0x1F100)
  ]

/-- The characters that stand for a single one of ASCII, with the one that the first of each range
stands for. -/
def asciiRanges : List (Nat × Nat × Nat) := [
    (0xAA, 0xAA, 0x61), (0xB2, 0xB3, 0x32), (0xB9, 0xB9, 0x31), (0xBA, 0xBA, 0x6F),
    (0x17F, 0x17F, 0x73), (0x2B0, 0x2B0, 0x68), (0x2B2, 0x2B2, 0x6A), (0x2B3, 0x2B3, 0x72),
    (0x2B7, 0x2B7, 0x77), (0x2B8, 0x2B8, 0x79), (0x2E1, 0x2E1, 0x6C), (0x2E2, 0x2E2, 0x73),
    (0x2E3, 0x2E3, 0x78), (0x37E, 0x37E, 0x3B), (0x1D2C, 0x1D2C, 0x61), (0x1D2E, 0x1D2E, 0x62),
    (0x1D30, 0x1D31, 0x64), (0x1D33, 0x1D3A, 0x67), (0x1D3C, 0x1D3C, 0x6F), (0x1D3E, 0x1D3E, 0x70),
    (0x1D3F, 0x1D3F, 0x72), (0x1D40, 0x1D41, 0x74), (0x1D42, 0x1D42, 0x77), (0x1D43, 0x1D43, 0x61),
    (0x1D47, 0x1D47, 0x62), (0x1D48, 0x1D49, 0x64), (0x1D4D, 0x1D4D, 0x67), (0x1D4F, 0x1D4F, 0x6B),
    (0x1D50, 0x1D50, 0x6D), (0x1D52, 0x1D52, 0x6F), (0x1D56, 0x1D56, 0x70), (0x1D57, 0x1D58, 0x74),
    (0x1D5B, 0x1D5B, 0x76), (0x1D62, 0x1D62, 0x69), (0x1D63, 0x1D63, 0x72), (0x1D64, 0x1D65, 0x75),
    (0x1D9C, 0x1D9C, 0x63), (0x1DA0, 0x1DA0, 0x66), (0x1DBB, 0x1DBB, 0x7A), (0x1FEF, 0x1FEF, 0x60),
    (0x2070, 0x2070, 0x30), (0x2071, 0x2071, 0x69), (0x2074, 0x2079, 0x34), (0x207A, 0x207A, 0x2B),
    (0x207C, 0x207C, 0x3D), (0x207D, 0x207E, 0x28), (0x207F, 0x207F, 0x6E), (0x2080, 0x2089, 0x30),
    (0x208A, 0x208A, 0x2B), (0x208C, 0x208C, 0x3D), (0x208D, 0x208E, 0x28), (0x2090, 0x2090, 0x61),
    (0x2091, 0x2091, 0x65), (0x2092, 0x2092, 0x6F), (0x2093, 0x2093, 0x78), (0x2095, 0x2095, 0x68),
    (0x2096, 0x2099, 0x6B), (0x209A, 0x209A, 0x70), (0x209B, 0x209C, 0x73), (0x2102, 0x2102, 0x63),
    (0x210A, 0x210B, 0x67), (0x210C, 0x210C, 0x68), (0x210D, 0x210D, 0x68), (0x210E, 0x210E, 0x68),
    (0x2110, 0x2110, 0x69), (0x2111, 0x2111, 0x69), (0x2112, 0x2112, 0x6C), (0x2113, 0x2113, 0x6C),
    (0x2115, 0x2115, 0x6E), (0x2119, 0x211B, 0x70), (0x211C, 0x211C, 0x72), (0x211D, 0x211D, 0x72),
    (0x2124, 0x2124, 0x7A), (0x2128, 0x2128, 0x7A), (0x212A, 0x212A, 0x6B), (0x212C, 0x212D, 0x62),
    (0x212F, 0x212F, 0x65), (0x2130, 0x2131, 0x65), (0x2133, 0x2133, 0x6D), (0x2134, 0x2134, 0x6F),
    (0x2139, 0x2139, 0x69), (0x2145, 0x2145, 0x64), (0x2146, 0x2147, 0x64), (0x2148, 0x2149, 0x69),
    (0x2160, 0x2160, 0x69), (0x2164, 0x2164, 0x76), (0x2169, 0x2169, 0x78), (0x216C, 0x216C, 0x6C),
    (0x216D, 0x216E, 0x63), (0x216F, 0x216F, 0x6D), (0x2170, 0x2170, 0x69), (0x2174, 0x2174, 0x76),
    (0x2179, 0x2179, 0x78), (0x217C, 0x217C, 0x6C), (0x217D, 0x217E, 0x63), (0x217F, 0x217F, 0x6D),
    (0x2460, 0x2468, 0x31), (0x24B6, 0x24CF, 0x61), (0x24D0, 0x24E9, 0x61), (0x24EA, 0x24EA, 0x30),
    (0x2C7C, 0x2C7C, 0x6A), (0x2C7D, 0x2C7D, 0x76), (0x3002, 0x3002, 0x2E), (0xA7F1, 0xA7F1, 0x73),
    (0xA7F2, 0xA7F2, 0x63), (0xA7F3, 0xA7F3, 0x66), (0xA7F4, 0xA7F4, 0x71), (0xFB29, 0xFB29, 0x2B),
    (0xFE10, 0xFE10, 0x2C), (0xFE13, 0xFE14, 0x3A), (0xFE15, 0xFE15, 0x21), (0xFE16, 0xFE16, 0x3F),
    (0xFE33, 0xFE33, 0x5F), (0xFE34, 0xFE34, 0x5F), (0xFE35, 0xFE36, 0x28), (0xFE37, 0xFE37, 0x7B),
    (0xFE38, 0xFE38, 0x7D), (0xFE47, 0xFE47, 0x5B), (0xFE48, 0xFE48, 0x5D), (0xFE4D, 0xFE4D, 0x5F),
    (0xFE4E, 0xFE4E, 0x5F), (0xFE4F, 0xFE4F, 0x5F), (0xFE50, 0xFE50, 0x2C), (0xFE54, 0xFE54, 0x3B),
    (0xFE55, 0xFE55, 0x3A), (0xFE56, 0xFE56, 0x3F), (0xFE57, 0xFE57, 0x21), (0xFE59, 0xFE5A, 0x28),
    (0xFE5B, 0xFE5B, 0x7B), (0xFE5C, 0xFE5C, 0x7D), (0xFE5F, 0xFE5F, 0x23), (0xFE60, 0xFE60, 0x26),
    (0xFE61, 0xFE62, 0x2A), (0xFE63, 0xFE63, 0x2D), (0xFE64, 0xFE64, 0x3C), (0xFE65, 0xFE65, 0x3E),
    (0xFE66, 0xFE66, 0x3D), (0xFE68, 0xFE68, 0x5C), (0xFE69, 0xFE6A, 0x24), (0xFE6B, 0xFE6B, 0x40),
    (0xFF01, 0xFF20, 0x21), (0xFF21, 0xFF3A, 0x61), (0xFF3B, 0xFF5E, 0x5B), (0xFF61, 0xFF61, 0x2E),
    (0x107A5, 0x107A5, 0x71), (0x1CCD6, 0x1CCEF, 0x61), (0x1CCF0, 0x1CCF9, 0x30),
    (0x1D400, 0x1D419, 0x61), (0x1D41A, 0x1D433, 0x61), (0x1D434, 0x1D44D, 0x61),
    (0x1D44E, 0x1D454, 0x61), (0x1D456, 0x1D467, 0x69), (0x1D468, 0x1D481, 0x61),
    (0x1D482, 0x1D49B, 0x61), (0x1D49C, 0x1D49C, 0x61), (0x1D49E, 0x1D49F, 0x63),
    (0x1D4A2, 0x1D4A2, 0x67), (0x1D4A5, 0x1D4A6, 0x6A), (0x1D4A9, 0x1D4AC, 0x6E),
    (0x1D4AE, 0x1D4B5, 0x73), (0x1D4B6, 0x1D4B9, 0x61), (0x1D4BB, 0x1D4BB, 0x66),
    (0x1D4BD, 0x1D4C3, 0x68), (0x1D4C5, 0x1D4CF, 0x70), (0x1D4D0, 0x1D4E9, 0x61),
    (0x1D4EA, 0x1D503, 0x61), (0x1D504, 0x1D505, 0x61), (0x1D507, 0x1D50A, 0x64),
    (0x1D50D, 0x1D514, 0x6A), (0x1D516, 0x1D51C, 0x73), (0x1D51E, 0x1D537, 0x61),
    (0x1D538, 0x1D539, 0x61), (0x1D53B, 0x1D53E, 0x64), (0x1D540, 0x1D544, 0x69),
    (0x1D546, 0x1D546, 0x6F), (0x1D54A, 0x1D550, 0x73), (0x1D552, 0x1D56B, 0x61),
    (0x1D56C, 0x1D585, 0x61), (0x1D586, 0x1D59F, 0x61), (0x1D5A0, 0x1D5B9, 0x61),
    (0x1D5BA, 0x1D5D3, 0x61), (0x1D5D4, 0x1D5ED, 0x61), (0x1D5EE, 0x1D607, 0x61),
    (0x1D608, 0x1D621, 0x61), (0x1D622, 0x1D63B, 0x61), (0x1D63C, 0x1D655, 0x61),
    (0x1D656, 0x1D66F, 0x61), (0x1D670, 0x1D689, 0x61), (0x1D68A, 0x1D6A3, 0x61),
    (0x1D7CE, 0x1D7D7, 0x30), (0x1D7D8, 0x1D7E1, 0x30), (0x1D7E2, 0x1D7EB, 0x30),
    (0x1D7EC, 0x1D7F5, 0x30), (0x1D7F6, 0x1D7FF, 0x30), (0x1F12B, 0x1F12B, 0x63),
    (0x1F12C, 0x1F12C, 0x72), (0x1F130, 0x1F149, 0x61), (0x1FBF0, 0x1FBF9, 0x30)
  ]

/-- The numbers in circles, with the number of the first of each range. -/
def circledRanges : List (Nat × Nat × Nat) :=
  [(0x2469, 0x2473, 10), (0x3251, 0x325F, 21), (0x32B1, 0x32BF, 36)]

/-- Replacements that start with a mark where the character is none, or are no mark where it is one,
or are written in another direction. -/
def specialReplacements : List (Char × List Char) :=
  [('\u0345', ['ι']), ('\u0E33', ['\u0E4D', '\u0E32']), ('\u0EB3', ['\u0ECD', '\u0EB2']),
    ('\u2135', ['\u05D0']), ('\u2136', ['\u05D1']), ('\u2137', ['\u05D2']),
    ('\u2138', ['\u05D3']), ('\uFF9E', ['\u3099']), ('\uFF9F', ['\u309A'])]

/-- The other characters that are replaced. -/
def replacedRanges : List (Nat × Nat) := [
    (0xB5, 0xB5), (0xBC, 0xBE), (0xC0, 0xD6), (0xD8, 0xDE), (0x133, 0x134), (0x136, 0x136),
    (0x140, 0x141), (0x181, 0x182), (0x18A, 0x18B), (0x18E, 0x191), (0x193, 0x194), (0x196, 0x198),
    (0x19C, 0x19D), (0x19F, 0x1A0), (0x1B2, 0x1B3), (0x1B8, 0x1B8), (0x1BC, 0x1BC), (0x1C4, 0x1CD),
    (0x1F1, 0x1F4), (0x1F6, 0x1F8), (0x23A, 0x23B), (0x23D, 0x23E), (0x244, 0x246), (0x2B1, 0x2B1),
    (0x2B4, 0x2B6), (0x2E0, 0x2E0), (0x2E4, 0x2E4), (0x340, 0x341), (0x343, 0x345), (0x37F, 0x37F),
    (0x386, 0x38A), (0x392, 0x3A1), (0x3A3, 0x3AB), (0x3CF, 0x3D6), (0x3F1, 0x3F2), (0x3F4, 0x3F5),
    (0x3FA, 0x3FA), (0x3FD, 0x42F), (0x531, 0x556), (0x587, 0x587), (0x675, 0x678), (0x958, 0x95F),
    (0x9DC, 0x9DD), (0x9DF, 0x9DF), (0xA33, 0xA33), (0xA36, 0xA36), (0xA59, 0xA5B), (0xA5E, 0xA5E),
    (0xB5C, 0xB5D), (0xE33, 0xE33), (0xEB3, 0xEB3), (0xEDC, 0xEDD), (0xF0C, 0xF0C), (0xF43, 0xF43),
    (0xF4D, 0xF4D), (0xF52, 0xF52), (0xF57, 0xF57), (0xF5C, 0xF5C), (0xF69, 0xF69), (0xF76, 0xF79),
    (0xF81, 0xF81), (0xF93, 0xF93), (0xF9D, 0xF9D), (0xFA2, 0xFA2), (0xFA7, 0xFA7), (0xFAC, 0xFAC),
    (0xFB9, 0xFB9), (0x10A0, 0x10C5), (0x10C7, 0x10C7), (0x10CD, 0x10CD), (0x10FC, 0x10FC),
    (0x13F8, 0x13FD), (0x1C80, 0x1C89), (0x1C90, 0x1CBA), (0x1CBD, 0x1CBF), (0x1D2D, 0x1D2D),
    (0x1D32, 0x1D32), (0x1D3D, 0x1D3D), (0x1D44, 0x1D46), (0x1D4A, 0x1D4C), (0x1D54, 0x1D55),
    (0x1D59, 0x1D5A), (0x1D5C, 0x1D61), (0x1D66, 0x1D6A), (0x1D78, 0x1D78), (0x1D9E, 0x1D9F),
    (0x1DA1, 0x1DBA), (0x1DBC, 0x1DBF), (0x1E9A, 0x1E9B), (0x1F08, 0x1F0F), (0x1F18, 0x1F1D),
    (0x1F28, 0x1F2F), (0x1F38, 0x1F3F), (0x1F48, 0x1F4D), (0x1F68, 0x1F6F), (0x1F80, 0x1FAF),
    (0x1FB2, 0x1FB4), (0x1FB7, 0x1FBC), (0x1FBE, 0x1FBE), (0x1FC2, 0x1FC4), (0x1FC7, 0x1FCC),
    (0x1FD3, 0x1FD3), (0x1FD8, 0x1FDB), (0x1FE3, 0x1FE3), (0x1FE8, 0x1FEC), (0x1FF2, 0x1FF4),
    (0x1FF7, 0x1FFC), (0x2011, 0x2011), (0x2033, 0x2034), (0x2036, 0x2037), (0x203C, 0x203C),
    (0x2057, 0x2057), (0x207B, 0x207B), (0x208B, 0x208B), (0x2094, 0x2094), (0x20A8, 0x20A8),
    (0x2103, 0x2103), (0x210F, 0x210F), (0x2116, 0x2116), (0x2120, 0x2122), (0x2126, 0x2126),
    (0x212B, 0x212B), (0x2132, 0x2132), (0x2135, 0x2138), (0x213B, 0x2140), (0x2150, 0x215F),
    (0x2161, 0x2163), (0x2165, 0x2168), (0x216A, 0x216B), (0x2171, 0x2173), (0x2175, 0x2178),
    (0x217A, 0x217B), (0x2183, 0x2183), (0x2189, 0x2189), (0x222C, 0x222D), (0x222F, 0x2230),
    (0x2329, 0x232A), (0x2469, 0x2487), (0x249C, 0x24B5), (0x2A0C, 0x2A0C), (0x2A75, 0x2A76),
    (0x2ADC, 0x2ADC), (0x2C00, 0x2C2F), (0x2C63, 0x2C64), (0x2C6E, 0x2C70), (0x2C72, 0x2C72),
    (0x2C75, 0x2C75), (0x2C7E, 0x2C80), (0x2CF2, 0x2CF2), (0x2D6F, 0x2D6F), (0x2E9F, 0x2E9F),
    (0x2EF3, 0x2EF3), (0x2F00, 0x2FD5), (0x3039, 0x303A), (0x309F, 0x309F), (0x30FF, 0x30FF),
    (0x3131, 0x3163), (0x3165, 0x318E), (0x3192, 0x319F), (0x3200, 0x321E), (0x3220, 0x3247),
    (0x3250, 0x327E), (0x3280, 0x33C1), (0x33C3, 0x33C6), (0x33C8, 0x33D7), (0x33D9, 0x33FF),
    (0xA69D, 0xA69D), (0xA7AB, 0xA7AE), (0xA7B0, 0xA7B4), (0xA7C5, 0xA7C7), (0xA7F5, 0xA7F5),
    (0xA7F8, 0xA7F9), (0xAB5C, 0xAB5F), (0xAB69, 0xAB69), (0xAB70, 0xABBF), (0xF900, 0xFA0D),
    (0xFA15, 0xFA1E), (0xFA25, 0xFA26), (0xFA2A, 0xFA6D), (0xFA70, 0xFAD9), (0xFB00, 0xFB06),
    (0xFB13, 0xFB17), (0xFB20, 0xFB28), (0xFB2A, 0xFB36), (0xFB38, 0xFB3C), (0xFB47, 0xFBB1),
    (0xFBD3, 0xFC5D), (0xFC64, 0xFD3D), (0xFD50, 0xFD8F), (0xFD92, 0xFDC7), (0xFDF0, 0xFDF9),
    (0xFDFC, 0xFDFC), (0xFE11, 0xFE11), (0xFE17, 0xFE18), (0xFE31, 0xFE32), (0xFE39, 0xFE44),
    (0xFE51, 0xFE51), (0xFE58, 0xFE58), (0xFE5D, 0xFE5E), (0xFE71, 0xFE71), (0xFE80, 0xFEFC),
    (0xFF5F, 0xFF60), (0xFF62, 0xFF9F), (0xFFA1, 0xFFBE), (0xFFC2, 0xFFC7), (0xFFCA, 0xFFCF),
    (0xFFD2, 0xFFD7), (0xFFDA, 0xFFDC), (0xFFE0, 0xFFE2), (0xFFE4, 0xFFE6), (0xFFE8, 0xFFEE),
    (0x10400, 0x10427), (0x104B0, 0x104D3), (0x10570, 0x1057A), (0x1057C, 0x1058A),
    (0x1058C, 0x10592), (0x10594, 0x10595), (0x10781, 0x10785), (0x10787, 0x107A4),
    (0x107A6, 0x107B0), (0x107B2, 0x107BA), (0x10C80, 0x10CB2), (0x10D50, 0x10D65),
    (0x118A0, 0x118BF), (0x16E40, 0x16E5F), (0x16EA0, 0x16EB8), (0x1D15E, 0x1D164),
    (0x1D1BB, 0x1D1C0), (0x1D6A4, 0x1D6A5), (0x1D6A8, 0x1D7CB), (0x1E030, 0x1E06D),
    (0x1E900, 0x1E921), (0x1EE00, 0x1EE03), (0x1EE05, 0x1EE1F), (0x1EE21, 0x1EE22),
    (0x1EE24, 0x1EE24), (0x1EE2A, 0x1EE32), (0x1EE34, 0x1EE37), (0x1EE42, 0x1EE42),
    (0x1EE4E, 0x1EE4F), (0x1EE51, 0x1EE52), (0x1EE54, 0x1EE54), (0x1EE67, 0x1EE6A),
    (0x1EE6C, 0x1EE72), (0x1EE74, 0x1EE77), (0x1EE79, 0x1EE7C), (0x1EE81, 0x1EE89),
    (0x1EE8B, 0x1EE9B), (0x1EEA1, 0x1EEA3), (0x1EEA5, 0x1EEA9), (0x1EEAB, 0x1EEBB),
    (0x1F101, 0x1F10A), (0x1F110, 0x1F12A), (0x1F12D, 0x1F12E), (0x1F14A, 0x1F14F),
    (0x1F16A, 0x1F16C), (0x1F190, 0x1F190), (0x1F200, 0x1F202), (0x1F210, 0x1F23B),
    (0x1F240, 0x1F248), (0x1F250, 0x1F251), (0x2F800, 0x2FA1D)
  ]

/-- Ranges in which every second code point is replaced, from the first on; most of them have
capitals beside their small letters. -/
def alternatingRanges : List (Nat × Nat) := [
    (0x100, 0x132), (0x139, 0x13F), (0x143, 0x149), (0x14A, 0x178), (0x179, 0x17D), (0x184, 0x186),
    (0x187, 0x189), (0x1A2, 0x1A6), (0x1A7, 0x1A9), (0x1AC, 0x1AE), (0x1AF, 0x1B1), (0x1B5, 0x1B7),
    (0x1CF, 0x1DB), (0x1DE, 0x1EE), (0x1FA, 0x232), (0x241, 0x243), (0x248, 0x24E), (0x370, 0x376),
    (0x38C, 0x38E), (0x38F, 0x391), (0x3D8, 0x3F0), (0x3F7, 0x3F9), (0x460, 0x480), (0x48A, 0x4C0),
    (0x4C1, 0x4CD), (0x4D0, 0x52E), (0xF73, 0xF75), (0x1D51, 0x1D53), (0x1D9B, 0x1D9D),
    (0x1E00, 0x1E94), (0x1E9E, 0x1EFE), (0x1F59, 0x1F5F), (0x1F71, 0x1F7D), (0x2107, 0x2109),
    (0x2C60, 0x2C62), (0x2C67, 0x2C6D), (0x2C82, 0x2CE2), (0x2CEB, 0x2CED), (0x3036, 0x3038),
    (0xA640, 0xA66C), (0xA680, 0xA69C), (0xA722, 0xA72E), (0xA732, 0xA770), (0xA779, 0xA77D),
    (0xA77E, 0xA786), (0xA78B, 0xA78D), (0xA790, 0xA792), (0xA796, 0xA7AA), (0xA7B6, 0xA7C4),
    (0xA7C9, 0xA7CB), (0xA7CC, 0xA7DC), (0xFA10, 0xFA12), (0xFA20, 0xFA22), (0xFB1D, 0xFB1F),
    (0xFB3E, 0xFB40), (0xFB41, 0xFB43), (0xFB44, 0xFB46), (0xFE77, 0xFE7F), (0x1EE27, 0x1EE29),
    (0x1EE39, 0x1EE3B), (0x1EE47, 0x1EE4D), (0x1EE57, 0x1EE61), (0x1EE62, 0x1EE64),
    (0x1EE7E, 0x1EE80)
  ]

/-- Whether a character is one of the two joiners, which are not shown and yet kept. -/
def isJoiner (c : Char) : Bool :=
  c == '\u200C' || c == '\u200D'

/-- Whether a character outside ASCII makes a domain malformed. -/
def isRefused (c : Char) : Bool :=
  (Text.isUnprintable c && !Text.isMark c && !isJoiner c) || inRanges refusedRanges c

/-- Whether a character is replaced by something outside ASCII. -/
def isReplaced (c : Char) : Bool :=
  inRanges replacedRanges c ||
    alternatingRanges.any fun (low, high) =>
      low ≤ c.toNat && c.toNat ≤ high && (c.toNat - low) % 2 = 0

/-- The number of a character in a table that has the number of the first character of each range;
the others follow in step. -/
def stepIn? (ranges : List (Nat × Nat × Nat)) (c : Char) : Option Nat :=
  (ranges.find? fun (low, high, _) => low ≤ c.toNat && c.toNat ≤ high).map fun (low, _, first) =>
    first + (c.toNat - low)

/-- What a character is replaced by. -/
def replacement? (c : Char) : Option (List Char) :=
  match stepIn? asciiRanges c with
  | some n => some [Char.ofNat n]
  | none =>
    match stepIn? circledRanges c with
    | some n => some (Nat.toDigits 10 n)
    | none =>
      match specialReplacements.lookup c with
      | some cs => some cs
      | none => if isReplaced c then some [c] else none

/-- What becomes of a character. -/
def fate (c : Char) : Fate :=
  if c.toNat < 0x80 then
    if 'A' ≤ c ∧ c ≤ 'Z' then .replaced [c.toLower] else .kept
  else if inRanges droppedRanges c then .dropped
  else if isRefused c then .refused
  else
    match replacement? c with
    | some cs => .replaced cs
    | none => .kept

/-- The characters of a domain after each was kept, dropped or replaced, if none is refused. -/
def mapped? : List Char → Option (List Char)
  | [] => some []
  | c :: rest =>
    match fate c with
    | .kept => (mapped? rest).map (c :: ·)
    | .dropped => mapped? rest
    | .replaced cs => (mapped? rest).map (cs ++ ·)
    | .refused => none

end Invigilation.Http.Domain
