import ScriptCheck.Text.CodeRange

/-!
# Widths of characters

How many columns of a fixed-width display a character takes. Marks that join their
neighbour and characters without a shape take none, ideographs and most emoji take two.
-/

namespace ScriptCheck.Text

/-- Code points that take no column: those with the property
Default_Ignorable_Code_Point or Grapheme_Extend, vowels and final consonants of Hangul,
and the signs that enclose or precede what follows them. -/
def shapelessRanges : List CodeRange :=
  CodeRange.runs 0 [173, 0, 594, 111, 275, 6, 263, 44, 1, 0, 1, 1, 1, 1, 1, 0, 61, 0, 10, 10, 1,
    0, 46, 20, 16, 0, 101, 6, 2, 5, 2, 1, 1, 3, 33, 0, 1, 0, 30, 26, 91, 10, 58, 8, 9, 0, 24, 3,
    1, 8, 1, 2, 1, 4, 43, 2, 52, 1, 6, 7, 42, 56, 55, 0, 1, 0, 4, 7, 4, 0, 3, 6, 10, 1, 29, 0, 58,
    0, 1, 0, 2, 3, 8, 0, 9, 0, 10, 1, 26, 0, 2, 1, 57, 0, 4, 1, 4, 1, 2, 2, 3, 0, 30, 1, 3, 0, 11,
    1, 57, 0, 4, 4, 1, 1, 4, 0, 20, 1, 22, 5, 1, 0, 58, 0, 1, 1, 1, 3, 8, 0, 7, 2, 10, 1, 30, 0,
    59, 0, 1, 0, 12, 0, 9, 0, 40, 0, 3, 0, 55, 0, 1, 2, 5, 2, 1, 3, 7, 1, 11, 1, 29, 0, 58, 0, 2,
    1, 1, 0, 3, 2, 1, 3, 7, 1, 11, 1, 28, 1, 57, 1, 1, 0, 2, 3, 8, 1, 8, 0, 10, 1, 29, 0, 72, 0,
    4, 0, 2, 2, 1, 0, 8, 0, 81, 0, 2, 6, 12, 7, 98, 0, 2, 8, 11, 6, 73, 1, 27, 0, 1, 0, 1, 0, 55,
    13, 1, 4, 1, 1, 5, 10, 1, 35, 9, 0, 102, 3, 1, 5, 1, 1, 2, 1, 25, 1, 4, 2, 16, 3, 13, 0, 2, 1,
    6, 0, 15, 0, 194, 159, 349, 2, 946, 2, 29, 1, 30, 1, 30, 1, 64, 1, 1, 6, 8, 0, 2, 10, 9, 0,
    45, 4, 117, 1, 34, 0, 118, 2, 4, 1, 9, 0, 6, 2, 219, 1, 2, 0, 58, 0, 1, 6, 1, 0, 1, 0, 2, 7,
    6, 9, 2, 0, 48, 30, 49, 3, 48, 9, 4, 1, 39, 8, 12, 1, 32, 3, 2, 1, 1, 2, 56, 0, 1, 1, 3, 0, 1,
    2, 58, 7, 2, 1, 152, 2, 1, 12, 1, 6, 4, 0, 6, 0, 3, 1, 198, 63, 523, 4, 26, 4, 49, 15, 96, 32,
    3070, 2, 238, 31, 554, 5, 105, 1, 201, 0, 29962, 3, 1, 9, 32, 1, 80, 1, 272, 0, 3, 0, 4, 0,
    25, 1, 5, 0, 151, 1, 26, 17, 8, 0, 4, 0, 38, 7, 25, 10, 46, 2, 48, 0, 2, 3, 2, 1, 39, 0, 67,
    5, 2, 1, 2, 1, 12, 0, 8, 0, 47, 0, 51, 0, 1, 2, 2, 1, 5, 1, 1, 0, 42, 1, 8, 0, 238, 0, 2, 0,
    4, 0, 11202, 22, 4, 48, 8994, 0, 737, 15, 16, 15, 207, 0, 158, 2, 79, 8, 516, 0, 226, 0, 149,
    4, 1670, 2, 1, 1, 5, 3, 40, 2, 4, 0, 165, 1, 573, 3, 387, 1, 80, 2, 70, 10, 49, 3, 123, 0, 54,
    14, 41, 0, 2, 1, 10, 2, 49, 3, 2, 1, 7, 0, 61, 2, 36, 4, 1, 7, 62, 0, 12, 1, 52, 8, 3, 1, 5,
    3, 2, 0, 95, 2, 2, 0, 1, 1, 6, 0, 2, 0, 157, 0, 3, 7, 21, 1, 57, 1, 1, 0, 1, 0, 22, 0, 14, 6,
    3, 4, 195, 7, 2, 2, 1, 0, 23, 0, 81, 0, 2, 5, 1, 0, 2, 0, 1, 1, 1, 1, 235, 0, 2, 3, 6, 1, 1,
    1, 27, 1, 85, 7, 2, 0, 1, 1, 106, 0, 1, 0, 2, 5, 1, 0, 101, 2, 2, 3, 1, 4, 259, 8, 1, 1, 245,
    0, 10, 1, 1, 1, 1, 0, 1, 0, 144, 3, 2, 1, 4, 0, 32, 9, 40, 5, 1, 4, 8, 0, 9, 5, 2, 2, 40, 18,
    1, 1, 406, 6, 1, 5, 1, 0, 82, 21, 2, 6, 1, 1, 1, 1, 122, 5, 3, 0, 1, 1, 1, 8, 72, 1, 3, 0, 1,
    0, 347, 1, 11, 2, 51, 4, 5, 0, 1, 0, 5373, 0, 6, 14, 13978, 4, 59, 6, 1048, 0, 63, 3, 81, 0,
    19640, 1, 1, 3, 4700, 45, 2, 22, 542, 0, 1, 2, 4, 20, 2, 6, 30, 3, 148, 2, 1979, 54, 4, 49, 8,
    0, 14, 0, 22, 4, 1, 14, 1360, 6, 1, 16, 2, 6, 1, 1, 1, 4, 100, 0, 160, 6, 375, 0, 61, 3, 508,
    3, 992, 6, 109, 6, 792245, 4095]

/-- Code points that take two columns: those with an East_Asian_Width of Wide or
Fullwidth, and one Khmer letter that is written as two. -/
def wideRanges : List CodeRange :=
  CodeRange.runs 0 [4352, 95, 1604, 0, 2933, 1, 13, 1, 190, 3, 3, 0, 2, 0, 521, 1, 21, 1, 50, 11,
    43, 0, 19, 0, 13, 0, 8, 1, 17, 1, 5, 1, 8, 0, 5, 0, 21, 0, 7, 1, 1, 0, 4, 0, 2, 0, 7, 0, 4, 1,
    28, 0, 35, 0, 1, 0, 4, 2, 1, 0, 61, 2, 24, 0, 14, 0, 859, 1, 51, 0, 4, 0, 810, 25, 1, 88, 12,
    213, 26, 57, 6, 14, 2, 85, 4, 100, 5, 42, 1, 50, 1, 41, 1, 83, 11, 47, 1, 39, 8, 7023, 64,
    22156, 3, 54, 1177, 28, 643, 11171, 8540, 511, 784, 9, 22, 34, 1, 18, 1, 3, 149, 95, 127, 6,
    28665, 3, 12, 1, 14, 6135, 8, 1237, 42, 8, 8935, 3, 1, 6, 1, 1, 1, 290, 15, 0, 29, 2, 2, 0,
    14, 3, 8, 395, 15624, 0, 202, 0, 190, 0, 2, 9, 101, 2, 13, 43, 4, 8, 7, 1, 14, 5, 154, 32, 12,
    8, 1, 69, 1, 21, 12, 42, 4, 4, 12, 16, 3, 0, 3, 70, 1, 0, 1, 186, 2, 62, 13, 3, 1, 23, 18, 0,
    26, 1, 13, 0, 86, 84, 48, 69, 6, 0, 3, 2, 2, 2, 4, 3, 11, 1, 7, 8, 227, 11, 4, 0, 283, 46, 1,
    9, 1, 184, 112, 12, 3, 8, 7, 45, 1, 6, 8, 13, 4, 8, 7, 8, 1287, 65533, 2, 65533]

/-- How many columns a character takes. Control characters take one, like letters. The
Khmer sign for "and so on" is as wide as the three signs that it stands for. -/
def columns (char : Char) : Nat :=
  if char.toNat < 0xA0 then 1
  else if inRanges shapelessRanges char then 0
  else if inRanges wideRanges char then 2
  else if char.toNat = 0x17D8 then 3
  else 1

end ScriptCheck.Text
