import Invigilation.Text.Mark

/-!
# Directions

The direction of a character is its Unicode property Bidi_Class, of which the classes of controls
and blanks are left out. The table has every class but two: the characters without an entry are
marks, or else written from left to right. A character that has another spelling in domains counts
as what that starts with.
-/

namespace Invigilation.Text

/-- The directions of characters. -/
inductive Direction where
  | left
  | right
  | arabic
  | arabicNumber
  | number
  /-- Plus and minus. -/
  | numberSign
  /-- What stands beside numbers, such as currency signs. -/
  | numberMark
  | separator
  | neutral
  | boundary
  | mark
  deriving DecidableEq, Repr

/-- The directions that are not the usual ones, in ascending order of the code points. -/
def directionRanges : List (Nat × Nat × Direction) := [
    (0x21, 0x22, .neutral), (0x24, 0x24, .numberMark), (0x26, 0x2A, .neutral),
    (0x2B, 0x2B, .numberSign), (0x2C, 0x2C, .separator), (0x2D, 0x2D, .numberSign),
    (0x2E, 0x2E, .separator), (0x30, 0x39, .number), (0x3B, 0x3B, .neutral), (0x3D, 0x3D, .neutral),
    (0x5F, 0x60, .neutral), (0x7B, 0x7B, .neutral), (0x7D, 0x7E, .neutral), (0xA1, 0xA1, .neutral),
    (0xA2, 0xA5, .numberMark), (0xA6, 0xAE, .neutral), (0xB0, 0xB1, .numberMark),
    (0xB6, 0xBB, .neutral), (0xBC, 0xBE, .number), (0xBF, 0xBF, .neutral), (0xD7, 0xD7, .neutral),
    (0xF7, 0xF7, .neutral), (0x2B9, 0x2BA, .neutral), (0x2C2, 0x2CF, .neutral),
    (0x2D2, 0x2DF, .neutral), (0x2E5, 0x2ED, .neutral), (0x2EF, 0x2FF, .neutral),
    (0x374, 0x375, .neutral), (0x387, 0x387, .neutral), (0x3F6, 0x3F6, .neutral),
    (0x58A, 0x58E, .neutral), (0x58F, 0x58F, .numberMark), (0x5BE, 0x5BE, .right),
    (0x5C0, 0x5C0, .right), (0x5C3, 0x5C3, .right), (0x5C6, 0x5C6, .right), (0x5D0, 0x5F4, .right),
    (0x606, 0x607, .neutral), (0x608, 0x608, .arabic), (0x609, 0x60A, .numberMark),
    (0x60B, 0x60B, .arabic), (0x60C, 0x60C, .separator), (0x60D, 0x60D, .arabic),
    (0x60E, 0x60F, .neutral), (0x61B, 0x64A, .arabic), (0x660, 0x669, .arabicNumber),
    (0x66A, 0x66A, .numberMark), (0x66B, 0x66C, .arabicNumber), (0x66D, 0x66F, .arabic),
    (0x671, 0x6D5, .arabic), (0x6DE, 0x6DE, .neutral), (0x6E5, 0x6E6, .arabic),
    (0x6E9, 0x6E9, .neutral), (0x6EE, 0x6EF, .arabic), (0x6F0, 0x6F9, .number),
    (0x6FA, 0x710, .arabic), (0x712, 0x72F, .arabic), (0x74D, 0x7A5, .arabic),
    (0x7B1, 0x7B1, .arabic), (0x7C0, 0x7EA, .right), (0x7F4, 0x7F5, .right),
    (0x7F6, 0x7F9, .neutral), (0x7FA, 0x7FA, .right), (0x7FE, 0x815, .right),
    (0x81A, 0x81A, .right), (0x824, 0x824, .right), (0x828, 0x828, .right), (0x830, 0x858, .right),
    (0x85E, 0x85E, .right), (0x860, 0x88F, .arabic), (0x8A0, 0x8C9, .arabic),
    (0x9F2, 0x9F3, .numberMark), (0x9FB, 0x9FB, .numberMark), (0xAF1, 0xAF1, .numberMark),
    (0xBF3, 0xBF8, .neutral), (0xBF9, 0xBF9, .numberMark), (0xBFA, 0xBFA, .neutral),
    (0xC78, 0xC7E, .neutral), (0xCBF, 0xCBF, .left), (0xCC6, 0xCC6, .left),
    (0xE3F, 0xE3F, .numberMark), (0xF3A, 0xF3D, .neutral), (0x1390, 0x1399, .neutral),
    (0x1400, 0x1400, .neutral), (0x169B, 0x169C, .neutral), (0x17DB, 0x17DB, .numberMark),
    (0x17F0, 0x180A, .neutral), (0x1940, 0x1945, .neutral), (0x19DE, 0x19FF, .neutral),
    (0x200C, 0x200D, .boundary), (0x2010, 0x2027, .neutral), (0x2030, 0x2034, .numberMark),
    (0x2035, 0x2043, .neutral), (0x2044, 0x2044, .separator), (0x2045, 0x2056, .neutral),
    (0x2057, 0x2057, .numberMark), (0x2058, 0x205E, .neutral), (0x207B, 0x208B, .numberSign),
    (0x20A0, 0x20A7, .numberMark), (0x20A9, 0x20C1, .numberMark), (0x2103, 0x2103, .numberMark),
    (0x2104, 0x2104, .neutral), (0x2108, 0x2108, .neutral), (0x2109, 0x2109, .numberMark),
    (0x2114, 0x2114, .neutral), (0x2117, 0x211F, .neutral), (0x2123, 0x2125, .neutral),
    (0x2127, 0x2129, .neutral), (0x212E, 0x212E, .numberMark), (0x2135, 0x2138, .right),
    (0x213A, 0x213A, .neutral), (0x2140, 0x214D, .neutral), (0x2150, 0x215F, .number),
    (0x2189, 0x2189, .number), (0x218A, 0x2211, .neutral), (0x2212, 0x2212, .numberSign),
    (0x2213, 0x2213, .numberMark), (0x2214, 0x2335, .neutral), (0x237B, 0x2394, .neutral),
    (0x2396, 0x244A, .neutral), (0x2469, 0x2473, .number), (0x2474, 0x26AB, .neutral),
    (0x26AD, 0x27FF, .neutral), (0x2900, 0x2BFF, .neutral), (0x2CE5, 0x2CEA, .neutral),
    (0x2CF9, 0x2CFF, .neutral), (0x2E00, 0x2E9E, .neutral), (0x2EA0, 0x2EF2, .neutral),
    (0x3001, 0x3004, .neutral), (0x3008, 0x3020, .neutral), (0x3030, 0x3030, .neutral),
    (0x3036, 0x3037, .neutral), (0x303D, 0x303F, .neutral), (0x30A0, 0x30A0, .neutral),
    (0x30FB, 0x30FB, .neutral), (0x31C0, 0x31E5, .neutral), (0x3200, 0x3243, .neutral),
    (0x3251, 0x325F, .number), (0x32B1, 0x32CB, .number), (0x3358, 0x3370, .number),
    (0x33E0, 0x33FE, .number), (0x4DC0, 0x4DFF, .neutral), (0xA490, 0xA4C6, .neutral),
    (0xA60D, 0xA60F, .neutral), (0xA673, 0xA673, .neutral), (0xA67E, 0xA67F, .neutral),
    (0xA700, 0xA721, .neutral), (0xA788, 0xA788, .neutral), (0xA828, 0xA82B, .neutral),
    (0xA838, 0xA839, .numberMark), (0xA874, 0xA877, .neutral), (0xAB6A, 0xAB6B, .neutral),
    (0xFB1D, 0xFB1D, .right), (0xFB1F, 0xFB4F, .right), (0xFB50, 0xFBC2, .arabic),
    (0xFBC3, 0xFBD2, .neutral), (0xFBD3, 0xFD3D, .arabic), (0xFD3E, 0xFD4F, .neutral),
    (0xFD50, 0xFD8F, .arabic), (0xFD90, 0xFD91, .neutral), (0xFD92, 0xFDC7, .arabic),
    (0xFDC8, 0xFDCF, .neutral), (0xFDF0, 0xFDFC, .arabic), (0xFDFD, 0xFE18, .neutral),
    (0xFE31, 0xFE5E, .neutral), (0xFE71, 0xFEFC, .arabic), (0xFF5F, 0xFF65, .neutral),
    (0xFFE0, 0xFFE1, .numberMark), (0xFFE2, 0xFFE4, .neutral), (0xFFE5, 0xFFE6, .numberMark),
    (0xFFE8, 0xFFEE, .neutral), (0x10101, 0x10101, .neutral), (0x10140, 0x1018C, .neutral),
    (0x10190, 0x101A0, .neutral), (0x102E1, 0x102FB, .number), (0x10800, 0x1091B, .right),
    (0x1091F, 0x1091F, .neutral), (0x10920, 0x10A00, .right), (0x10A10, 0x10A35, .right),
    (0x10A40, 0x10AE4, .right), (0x10AEB, 0x10B35, .right), (0x10B39, 0x10B3F, .neutral),
    (0x10B40, 0x10CFF, .right), (0x10D00, 0x10D23, .arabic), (0x10D30, 0x10D39, .arabicNumber),
    (0x10D40, 0x10D65, .right), (0x10D6E, 0x10D6E, .neutral), (0x10D6F, 0x10D8F, .right),
    (0x10E60, 0x10E7E, .arabicNumber), (0x10E80, 0x10EA9, .right), (0x10EAD, 0x10EB1, .right),
    (0x10EC2, 0x10EC7, .arabic), (0x10ED0, 0x10ED8, .neutral), (0x10F00, 0x10F27, .right),
    (0x10F30, 0x10F45, .arabic), (0x10F51, 0x10F59, .arabic), (0x10F70, 0x10F81, .right),
    (0x10F86, 0x10FF6, .right), (0x11052, 0x11065, .neutral), (0x11660, 0x1166C, .neutral),
    (0x1171E, 0x1171E, .mark), (0x11A07, 0x11A07, .left), (0x11A08, 0x11A08, .left),
    (0x11C3F, 0x11C3F, .left), (0x11FD5, 0x11FDC, .neutral), (0x11FDD, 0x11FE0, .numberMark),
    (0x11FE1, 0x11FF1, .neutral), (0x16FE2, 0x16FE2, .neutral), (0x1CC00, 0x1CEF0, .neutral),
    (0x1D1E9, 0x1D241, .neutral), (0x1D245, 0x1D245, .neutral), (0x1D300, 0x1D356, .neutral),
    (0x1D6C1, 0x1D6C1, .neutral), (0x1D6DB, 0x1D6DB, .neutral), (0x1D6FB, 0x1D6FB, .neutral),
    (0x1D715, 0x1D715, .neutral), (0x1D735, 0x1D735, .neutral), (0x1D74F, 0x1D74F, .neutral),
    (0x1D76F, 0x1D76F, .neutral), (0x1D789, 0x1D789, .neutral), (0x1D7A9, 0x1D7A9, .neutral),
    (0x1D7C3, 0x1D7C3, .neutral), (0x1E2FF, 0x1E2FF, .numberMark), (0x1E800, 0x1E8CF, .right),
    (0x1E900, 0x1E943, .right), (0x1E94B, 0x1E95F, .right), (0x1EC71, 0x1EEBB, .arabic),
    (0x1EEF0, 0x1F0F5, .neutral), (0x1F101, 0x1F10A, .number), (0x1F10B, 0x1F12A, .neutral),
    (0x1F12F, 0x1F12F, .neutral), (0x1F16D, 0x1F16F, .neutral), (0x1F1AD, 0x1F1AD, .neutral),
    (0x1F240, 0x1F248, .neutral), (0x1F260, 0x1FBFA, .neutral)
  ]

/-- The direction of a character. -/
def direction (c : Char) : Direction :=
  match valueIn? directionRanges c with
  | some d => d
  | none => if isNonspacing c then .mark else .left

end Invigilation.Text
