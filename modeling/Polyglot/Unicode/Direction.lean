import Polyglot.Unicode.CodeSet

/-!
In which direction characters are written, and how the letters of cursive scripts join their
neighbours. The sets tell assigned characters apart; of others nothing is said.
-/
namespace Polyglot.Unicode

namespace Direction

/-- Letters written from right to left. -/
def rightToLeft : CodeSet := CodeSet.ofRuns
  ["1470 1 1 1 2 1 2 1 9 37 19 1 2 1 1 1 13 48 34 3 1 101 15 2 7 2 10 23 1 30 29 89 11 58 9 2 4",
   "1 3 24 4 1 9 1 3 1 7 41 5 50 16 42 5957 1 56077 1 1 10 1 153 16 363 18 64 2 54 40 13 115 141",
   "2307 284 4 225 15 38 10 165 6 75 10 484 38 28 9 33 240 42 3 27 56 70 11 49 4 113 55305 208",
   "48 68 7 1393"]

/-- Digits of Arabic. -/
def arabicDigits : CodeSet := CodeSet.ofRuns
  ["1536 6 90 10 1 2 112 1 434 2 80 1 66637 26 278 31"]

/-- European digits. -/
def europeanDigits : CodeSet := CodeSet.ofRuns
  ["48 10 120 2 5 1 1590 10 6518 1 3 6 6 10 1022 20 55924 10 967 27 51700 10 2772 50 6400 11",
   "2789 10"]

/-- Marks that take the direction of what they stand on. -/
def marks : CodeSet := CodeSet.ofRuns
  ["768 112 275 7 263 45 1 1 1 2 1 2 1 1 72 11 48 21 16 1 101 7 2 6 2 2 1 4 35 1 30 27 91 11 58",
   "9 9 1 24 4 1 9 1 3 1 5 43 3 59 9 42 24 1 32 55 1 1 1 4 8 4 1 3 7 10 2 29 1 58 1 4 4 8 1 20 2",
   "26 5 57 1 4 17 30 2 3 1 11 2 57 1 4 8 4 1 20 2 22 8 58 1 2 1 1 4 8 10 11 2 30 1 61 1 12 1 50",
   "1 3 1 55 1 1 3 5 17 11 2 29 1 58 1 15 2 20 2 28 2 57 2 4 4 8 1 20 2 29 1 72 1 7 5 90 1 2 7",
   "12 8 98 1 2 9 11 7 73 2 27 1 1 1 1 1 55 14 1 5 1 2 5 48 9 1 102 4 1 6 1 2 2 2 25 2 4 3 16 4",
   "13 1 2 2 6 1 15 1 703 3 946 3 29 2 30 2 30 2 64 2 1 7 8 1 2 11 9 1 45 3 1 1 117 2 34 1 118 3",
   "4 2 9 1 6 3 219 2 2 1 58 1 1 9 1 1 2 8 6 13 48 84 48 1 1 5 1 1 5 1 40 9 12 2 32 4 2 2 1 3 56",
   "1 1 2 3 1 1 3 58 8 2 2 152 3 1 13 1 7 4 1 6 1 3 2 198 64 720 33 3070 3 141 1 96 32 554 4 107",
   "2 30164 4 1 10 32 2 80 2 272 1 3 1 4 1 25 2 5 1 151 2 26 18 13 1 38 8 25 11 46 3 48 1 2 4 2",
   "2 39 1 67 6 2 2 2 2 12 1 8 1 47 1 51 1 1 3 2 2 5 2 1 1 42 2 8 1 238 1 2 1 4 1 20272 1 737 16",
   "16 16 973 1 226 1 149 5 1670 15 40 8 165 2 573 4 65 5 317 2 77 6 70 11 49 4 123 1 54 15 41 1",
   "2 2 10 3 49 4 2 2 7 1 61 3 36 5 1 8 62 1 12 2 52 9 10 4 2 1 95 3 2 1 1 2 6 1 2 1 157 1 3 8",
   "21 2 57 2 3 1 37 15 70 6 13 1 1 1 1 1 14 2 85 8 2 3 1 1 23 1 84 6 1 1 4 2 1 2 238 4 6 2 1 2",
   "27 2 85 8 2 1 1 2 106 1 1 1 2 6 1 1 101 1 1 1 2 4 1 5 259 9 1 2 256 2 1 1 4 1 144 8 4 1 32 6",
   "2 2 40 6 2 4 8 1 9 6 2 3 46 13 1 2 198 1 1 3 1 1 201 14 84 22 2 7 1 2 1 2 122 21 1 1 72 2 3",
   "1 1 1 347 2 11 2 52 5 5 1 1 1 23 1 5349 1 6 15 11464 12 3 3 2496 5 59 7 1048 1 63 4 81 1",
   "19640 2 4705 71 544 3 17 8 2 7 30 4 148 3 1979 55 4 50 8 1 14 1 22 21 1360 43 100 1 160 7",
   "375 1 61 4 508 4 254 2 243 1 2 1 7 2 5 1 474 7 109 7 792501 240"]

/-- Signs without a direction that may stand among letters. -/
def neutral : CodeSet := CodeSet.ofRuns
  ["0 9 5 14 5 15 10 7 26 6 26 10 1 36 1 7 2 1 1 3 2 5 23 1 31 1 449 2 7 14 2 14 5 9 1 17 116 2",
   "8 1 5 2 1 1 110 1 403 6 118 2 1 2 1 1 1 2 90 1 115 1 10 1 268 4 504 2 7 1 245 1 257 8 125 7",
   "448 1 250 4 1106 10 102 1 666 2 318 1 20 27 3 1 305 6 152 34 1469 1 1 3 11 3 13 3 13 3 13 2",
   "12 3 2 24 7 48 1 5 5 6 10 5 11 5 17 34 62 2 1 4 1 2 10 1 1 3 5 6 1 1 1 1 1 1 4 1 11 2 4 5 5",
   "4 2 16 41 429 69 26 1 242 98 450 1 339 256 768 229 6 14 7 256 512 1 4 3 25 15 1 5 2 5 3 91 2",
   "3 1 90 1 196 48 45 2 49 16 28 3 50 15 12 4 167 4 99 2 31 1 6592 64 22160 55 326 3 99 1 10 2",
   "128 34 102 1 159 4 12 2 58 4 754 2 20413 1 153 16 363 18 64 2 54 8 45 3 16 10 22 60 147 17",
   "10 7 26 6 26 11 122 30 259 1 62 77 3 17 1918 1 537 7 558 1 353 9 377 20 1530 13 2408 29",
   "20464 1 19645 4150 36 503 642 8 110 89 3 1 186 87 874 1 25 1 31 1 25 1 31 1 25 1 31 1 25 1",
   "31 1 25 1 2875 1 3056 518 21 5 31 1 58 6 61 1 178 2448 10 1 787462 127"]

/-- Separators, blanks and controls of the direction. -/
def barred : CodeSet := CodeSet.ofRuns
  ["9 5 14 5 100 1 5626 1 2431 11 29 7 48 1 6 4 3990 1"]

/-- What a character does to the direction of its surroundings. -/
inductive Class where
  | left
  | right
  | arabicDigit
  | europeanDigit
  | mark
  | neutral
  | barred
deriving DecidableEq

def ofChar (c : Char) : Class :=
  if rightToLeft.mem c then .right
  else if arabicDigits.mem c then .arabicDigit
  else if europeanDigits.mem c then .europeanDigit
  else if marks.mem c then .mark
  else if neutral.mem c then .neutral
  else if barred.mem c then .barred
  else .left

end Direction

namespace Joining

/-- Letters that join the one behind them. -/
def forward : CodeSet := CodeSet.ofRuns
  ["1568 1 5 1 1 1 1 5 4 13 1 7 1 2 35 2 8 16 18 38 1 2 9 1 1 1 1 2 40 3 2 1 18 3 5 4 1 9 1 1 1",
   "1 1 2 31 11 3 15 2 4 1 1 2 3 2 6 74 33 86 5 2 1 1 10 1 1 10 1 1 4 2 1 29 1 2 5 1 1 16 10 5 2",
   "2 6 1 15 3902 1 24 89 14 34 1 1 36757 51 25165 5 8 1 5 10 1 3 10 4 145 1 1 1 3 3 1 2 1 1 2 1",
   "28 2 337 34 1 1 415 2 1 2 104 3 1 17 12 3 28 4 2 12 46 1 1 2 4 1 2 2 1 2 1 1 2 1 5 2 55604",
   "68"]

/-- Letters that join the one before them. -/
def backward : CodeSet := CodeSet.ofRuns
  ["1568 1 1 30 1 10 35 2 1 3 1 95 1 1 24 2 10 3 2 1 16 1 1 30 29 51 74 33 85 25 7 1 1 4 1 28 3",
   "1 2 7 16 13 1 27 3902 1 24 89 14 34 1 1 36757 50 25166 6 1 1 1 2 3 9 1 10 2 1 6 5 144 18 23",
   "6 338 35 414 3 1 2 104 21 12 4 27 18 46 1 1 5 1 8 1 4 4 2 55605 68"]

/-- Marks that letters join across. -/
def transparent : CodeSet := CodeSet.ofRuns
  ["173 1 594 112 275 7 263 45 1 1 1 2 1 2 1 1 72 11 1 1 46 21 16 1 101 7 2 6 2 2 1 4 33 1 1 1",
   "30 27 91 11 58 9 9 1 24 4 1 9 1 3 1 5 43 3 59 9 42 24 1 32 55 1 1 1 4 8 4 1 3 7 10 2 29 1 58",
   "1 4 4 8 1 20 2 26 5 57 1 4 17 30 2 3 1 11 2 57 1 4 8 4 1 20 2 22 8 58 1 2 1 1 4 8 10 11 2 30",
   "1 61 1 12 1 50 1 3 1 55 1 1 3 5 17 11 2 29 1 58 1 2 1 6 1 5 2 20 2 28 2 57 2 4 4 8 1 20 2 29",
   "1 72 1 7 5 90 1 2 7 12 8 98 1 2 9 11 7 73 2 27 1 1 1 1 1 55 14 1 5 1 2 5 48 9 1 102 4 1 6 1",
   "2 2 2 25 2 4 3 16 4 13 1 2 2 6 1 15 1 703 3 946 3 29 2 30 2 30 2 64 2 1 7 8 1 2 11 9 1 45 3",
   "1 1 117 2 34 1 118 3 4 2 9 1 6 3 219 2 2 1 58 1 1 9 1 1 2 8 6 13 48 84 48 1 1 5 1 1 5 1 40 9",
   "12 2 32 4 2 2 1 3 56 1 1 2 3 1 1 3 58 8 2 2 152 3 1 13 1 7 4 1 6 1 3 2 198 64 523 1 2 2 26 5",
   "49 5 5 6 96 33 3070 3 141 1 96 32 554 4 107 2 30164 4 1 10 32 2 80 2 272 1 3 1 4 1 25 2 5 1",
   "151 2 26 18 13 1 38 8 25 11 46 3 48 1 2 4 2 2 39 1 67 6 2 2 2 2 12 1 8 1 47 1 51 1 1 3 2 2 5",
   "2 1 1 42 2 8 1 238 1 2 1 4 1 20272 1 737 16 16 16 207 1 249 3 513 1 226 1 149 5 1670 15 40 8",
   "165 2 573 4 65 5 317 2 77 6 70 11 49 4 123 1 54 15 41 1 2 2 10 3 49 4 2 2 7 1 61 3 36 5 1 8",
   "62 1 12 2 52 9 10 4 2 1 95 3 2 1 1 2 6 1 2 1 157 1 3 8 21 2 57 2 3 1 37 15 70 6 13 1 1 1 1 1",
   "14 2 85 8 2 3 1 1 23 1 84 6 1 1 4 2 1 2 238 4 6 2 1 2 27 2 85 8 2 1 1 2 106 1 1 1 2 6 1 1",
   "101 1 1 1 2 4 1 5 259 9 1 2 256 2 1 1 4 1 144 8 4 1 32 10 40 6 2 4 8 1 9 6 2 3 46 13 1 2 198",
   "1 1 3 1 1 201 14 1 1 82 22 2 7 1 2 1 2 122 21 1 1 72 2 3 1 1 1 347 2 11 2 52 5 5 1 1 1 23 1",
   "5333 17 6 15 11464 12 3 3 2496 5 59 7 1048 1 63 4 81 1 19640 2 1 4 4700 71 544 3 9 16 2 7 30",
   "4 148 3 1979 55 4 50 8 1 14 1 22 21 1360 43 100 1 160 7 375 1 61 4 508 4 254 2 243 1 2 1 7 2",
   "5 1 474 7 109 8 792245 495"]

end Joining

end Polyglot.Unicode
