import Polyglot.Unicode.CodeSet
import Std.Data.HashMap

/-!
The composed normal form of text: marks behind a letter stand in the order of their classes, and a
letter with a mark is one character where there is one for it.
-/
namespace Polyglot.Unicode

namespace Normalization

/-- The marks of each combining class. All other characters are of class 0. -/
def classRuns : List (Nat × List String) :=
  [
    (1, ["820 5 6555 1 13 7 1001 2 4 3 10 2 3 2 59725 1 24758 5 20905 1 5320 3"]),
    (6, ["94192 2"]),
    (7, ["2364 1 127 1 127 1 127 1 127 1 255 1 127 1 890 1 2812 1 177 1 80 1 36219 1 26374 1",
           "184 1 86 1 107 1 178 1 81 2 265 1 124 1 252 1 246 1 386 1 264 1 1022 1 52231 1"]),
    (8, ["12441 2"]),
    (9, ["2381 1 127 1 127 1 127 1 127 1 127 1 127 1 127 1 109 2 16 1 124 1 111 1 127 1 201 1",
           "180 2 1753 2 30 1 157 1 653 1 227 1 101 2 70 2 4491 1 31366 1 37 1 151 1 142 1 108 1",
           "309 1 246 1 24145 1 1542 1 41 1 14 1 57 1 121 2 139 1 116 1 180 1 98 1 128 3 113 1",
           "127 1 252 1 127 1 118 1 116 1 269 1 259 2 161 1 83 1 18 1 81 1 421 1 260 2 81 1 425",
           "2 16876 1"]),
    (10, ["1456 1"]),
    (11, ["1457 1"]),
    (12, ["1458 1"]),
    (13, ["1459 1"]),
    (14, ["1460 1"]),
    (15, ["1461 1"]),
    (16, ["1462 1"]),
    (17, ["1463 1"]),
    (18, ["1464 1 14 1"]),
    (19, ["1465 2"]),
    (20, ["1467 1"]),
    (21, ["1468 1"]),
    (22, ["1469 1"]),
    (23, ["1471 1"]),
    (24, ["1473 1"]),
    (25, ["1474 1"]),
    (26, ["64286 1"]),
    (27, ["1611 1 676 1"]),
    (28, ["1612 1 676 1"]),
    (29, ["1613 1 676 1"]),
    (30, ["1560 1 53 1"]),
    (31, ["1561 1 53 1"]),
    (32, ["1562 1 53 1"]),
    (33, ["1617 1"]),
    (34, ["1618 1"]),
    (35, ["1648 1"]),
    (36, ["1809 1"]),
    (84, ["3157 1"]),
    (91, ["3158 1"]),
    (103, ["3640 2"]),
    (107, ["3656 4"]),
    (118, ["3768 2"]),
    (122, ["3784 4"]),
    (129, ["3953 1"]),
    (130, ["3954 1 7 4 2 1"]),
    (132, ["3956 1"]),
    (202, ["801 2 4 2 6823 1"]),
    (214, ["7630 1"]),
    (216, ["795 1 3101 1 115243 2 7 5"]),
    (218, ["7674 1 4655 1"]),
    (220, ["790 4 2 5 2 4 2 11 5 4 10 3 3 2 4 4 2 2 566 1 4 1 4 1 6 6 2 1 26 1 143 2 5 1 2 1 131",
           "1 6 1 2 1 67 1 2 1 2 3 1 2 1 1 3 1 1 1 1 1 1 1 169 1 10 1 91 3 61 3 51 5 15 1 2 1 2",
           "1 3 3 6 1 2 2 87 1 1477 2 27 1 1 1 142 1 198 1 2221 1 220 1 102 1 53 6 2 1 1 2 2 2 5",
           "1 18 1 8 1 133 1 360 5 2 4 13 1 212 1 7 1 4 1 41 1 3 1 1 1 744 1 3 4 34875 3 390 1",
           "21362 7 975 1 226 1 1836 1 44 1 171 1 1043 2 1 3 70 2 3 1 1 4 50 1 1 1 49653 8 7 2",
           "4962 1 256 1 736 7"]),
    (222, ["1434 1 18 1 5003 1 5875 1"]),
    (224, ["12334 2"]),
    (226, ["119149 1"]),
    (228, ["1454 1 4858 1 1357 2 4658 1"]),
    (230, ["768 21 40 8 1 1 3 3 3 3 4 1 3 1 7 13 275 5 266 4 1 3 2 6 6 2 1 2 2 1 20 1 75 8 59 2",
           "2 5 1 2 119 7 2 4 1 1 2 2 2 2 67 1 1 2 1 2 3 1 2 1 1 3 1 1 1 1 1 1 1 2 160 7 1 1 34",
           "4 1 9 1 3 1 5 105 2 3 4 42 5 5 14 2 2 1 2 1 3 6 3 1 2 2 5 81 1 1 2 169 1 1411 2 2 2",
           "981 3 1149 1 348 1 220 1 93 8 51 5 6 2 4 2 2 5 1 18 3 6 1 4 128 1 1 7 348 3 7 2 4 1",
           "19 1 3 2 198 2 1 7 1 2 4 37 5 1 2 1 721 2 2 4 3 2 4 1 5 1 1 1 6 1 3070 3 238 32",
           "30831 1 4 10 32 2 80 2 494 18 446 1 1 2 3 2 5 2 1 1 21342 7 7 2 1350 5 1684 1 40 1",
           "172 1 574 4 65 5 317 2 155 3 1 1 53 1 1 1 379 3 611 7 3 5 233 1 22225 7 26190 5 32 4",
           "148 3 3515 7 1 17 2 7 1 2 1 5 100 1 160 7 375 1 61 4 511 1 254 1 244 1 2 1 7 2 5 1",
           "590 6"]),
    (232, ["789 1 4 1 61 1 6813 1 4661 1 111807 2"]),
    (233, ["860 1 2 1 2 1 6809 1"]),
    (234, ["861 2 1 2 6025 1 737 1"]),
    (240, ["837 1"])
  ]

def classSets : List (Nat × CodeSet) := classRuns.map fun (k, lines) => (k, CodeSet.ofRuns lines)

/-- The class by which a mark is ordered among its neighbours. -/
def combiningClass (n : Nat) : Nat :=
  if n < 0x300 then 0
  else
    match classSets.find? (·.2.contains n) with
    | some (k, _) => k
    | none => 0

/-- The composed characters with their two parts, as triples: the distance from the composed
character before, then the parts. -/
def compositionLines : List String :=
  [
    "192 65 768 1 65 769 1 65 770 1 65 771 1 65 776 1 65 778 2 67 807 1 69 768 1 69 769 1 69 770",
    "1 69 776 1 73 768 1 73 769 1 73 770 1 73 776 2 78 771 1 79 768 1 79 769 1 79 770 1 79 771 1",
    "79 776 3 85 768 1 85 769 1 85 770 1 85 776 1 89 769 3 97 768 1 97 769 1 97 770 1 97 771 1 97",
    "776 1 97 778 2 99 807 1 101 768 1 101 769 1 101 770 1 101 776 1 105 768 1 105 769 1 105 770",
    "1 105 776 2 110 771 1 111 768 1 111 769 1 111 770 1 111 771 1 111 776 3 117 768 1 117 769 1",
    "117 770 1 117 776 1 121 769 2 121 776 1 65 772 1 97 772 1 65 774 1 97 774 1 65 808 1 97 808",
    "1 67 769 1 99 769 1 67 770 1 99 770 1 67 775 1 99 775 1 67 780 1 99 780 1 68 780 1 100 780 3",
    "69 772 1 101 772 1 69 774 1 101 774 1 69 775 1 101 775 1 69 808 1 101 808 1 69 780 1 101 780",
    "1 71 770 1 103 770 1 71 774 1 103 774 1 71 775 1 103 775 1 71 807 1 103 807 1 72 770 1 104",
    "770 3 73 771 1 105 771 1 73 772 1 105 772 1 73 774 1 105 774 1 73 808 1 105 808 1 73 775 4",
    "74 770 1 106 770 1 75 807 1 107 807 2 76 769 1 108 769 1 76 807 1 108 807 1 76 780 1 108 780",
    "5 78 769 1 110 769 1 78 807 1 110 807 1 78 780 1 110 780 4 79 772 1 111 772 1 79 774 1 111",
    "774 1 79 779 1 111 779 3 82 769 1 114 769 1 82 807 1 114 807 1 82 780 1 114 780 1 83 769 1",
    "115 769 1 83 770 1 115 770 1 83 807 1 115 807 1 83 780 1 115 780 1 84 807 1 116 807 1 84 780",
    "1 116 780 3 85 771 1 117 771 1 85 772 1 117 772 1 85 774 1 117 774 1 85 778 1 117 778 1 85",
    "779 1 117 779 1 85 808 1 117 808 1 87 770 1 119 770 1 89 770 1 121 770 1 89 776 1 90 769 1",
    "122 769 1 90 775 1 122 775 1 90 780 1 122 780 34 79 795 1 111 795 14 85 795 1 117 795 29 65",
    "780 1 97 780 1 73 780 1 105 780 1 79 780 1 111 780 1 85 780 1 117 780 1 220 772 1 252 772 1",
    "220 769 1 252 769 1 220 780 1 252 780 1 220 768 1 252 768 2 196 772 1 228 772 1 550 772 1",
    "551 772 1 198 772 1 230 772 3 71 780 1 103 780 1 75 780 1 107 780 1 79 808 1 111 808 1 490",
    "772 1 491 772 1 439 780 1 658 780 1 106 780 4 71 769 1 103 769 3 78 768 1 110 768 1 197 769",
    "1 229 769 1 198 769 1 230 769 1 216 769 1 248 769 1 65 783 1 97 783 1 65 785 1 97 785 1 69",
    "783 1 101 783 1 69 785 1 101 785 1 73 783 1 105 783 1 73 785 1 105 785 1 79 783 1 111 783 1",
    "79 785 1 111 785 1 82 783 1 114 783 1 82 785 1 114 785 1 85 783 1 117 783 1 85 785 1 117 785",
    "1 83 806 1 115 806 1 84 806 1 116 806 3 72 780 1 104 780 7 65 775 1 97 775 1 69 807 1 101",
    "807 1 214 772 1 246 772 1 213 772 1 245 772 1 79 775 1 111 775 1 558 772 1 559 772 1 89 772",
    "1 121 772 338 168 769 1 913 769 2 917 769 1 919 769 1 921 769 2 927 769 2 933 769 1 937 769",
    "1 970 769 26 921 776 1 933 776 1 945 769 1 949 769 1 951 769 1 953 769 1 971 769 26 953 776",
    "1 965 776 1 959 769 1 965 769 1 969 769 5 978 769 1 978 776 44 1045 768 1 1045 776 2 1043",
    "769 4 1030 776 5 1050 769 1 1048 768 1 1059 774 11 1048 774 32 1080 774 23 1077 768 1 1077",
    "776 2 1075 769 4 1110 776 5 1082 769 1 1080 768 1 1091 774 24 1140 783 1 1141 783 74 1046",
    "774 1 1078 774 14 1040 774 1 1072 774 1 1040 776 1 1072 776 3 1045 774 1 1077 774 3 1240 776",
    "1 1241 776 1 1046 776 1 1078 776 1 1047 776 1 1079 776 3 1048 772 1 1080 772 1 1048 776 1",
    "1080 776 1 1054 776 1 1086 776 3 1256 776 1 1257 776 1 1069 776 1 1101 776 1 1059 772 1 1091",
    "772 1 1059 776 1 1091 776 1 1059 779 1 1091 779 1 1063 776 1 1095 776 3 1067 776 1 1099 776",
    "297 1575 1619 1 1575 1620 1 1608 1620 1 1575 1621 1 1610 1620 154 1749 1620 2 1729 1620 17",
    "1746 1620 598 2344 2364 8 2352 2364 3 2355 2364 151 2503 2494 1 2503 2519 380 2887 2902 3",
    "2887 2878 1 2887 2903 72 2962 3031 54 3014 3006 1 3015 3006 1 3014 3031 124 3142 3158 120",
    "3263 3285 7 3270 3285 1 3270 3286 2 3270 3266 1 3274 3285 127 3398 3390 1 3399 3390 1 3398",
    "3415 142 3545 3530 2 3545 3535 1 3548 3530 1 3545 3551 584 4133 4142 2784 6917 6965 2 6919",
    "6965 2 6921 6965 2 6923 6965 2 6925 6965 4 6929 6965 41 6970 6965 2 6972 6965 3 6974 6965 1",
    "6975 6965 2 6978 6965 701 65 805 1 97 805 1 66 775 1 98 775 1 66 803 1 98 803 1 66 817 1 98",
    "817 1 199 769 1 231 769 1 68 775 1 100 775 1 68 803 1 100 803 1 68 817 1 100 817 1 68 807 1",
    "100 807 1 68 813 1 100 813 1 274 768 1 275 768 1 274 769 1 275 769 1 69 813 1 101 813 1 69",
    "816 1 101 816 1 552 774 1 553 774 1 70 775 1 102 775 1 71 772 1 103 772 1 72 775 1 104 775 1",
    "72 803 1 104 803 1 72 776 1 104 776 1 72 807 1 104 807 1 72 814 1 104 814 1 73 816 1 105 816",
    "1 207 769 1 239 769 1 75 769 1 107 769 1 75 803 1 107 803 1 75 817 1 107 817 1 76 803 1 108",
    "803 1 7734 772 1 7735 772 1 76 817 1 108 817 1 76 813 1 108 813 1 77 769 1 109 769 1 77 775",
    "1 109 775 1 77 803 1 109 803 1 78 775 1 110 775 1 78 803 1 110 803 1 78 817 1 110 817 1 78",
    "813 1 110 813 1 213 769 1 245 769 1 213 776 1 245 776 1 332 768 1 333 768 1 332 769 1 333",
    "769 1 80 769 1 112 769 1 80 775 1 112 775 1 82 775 1 114 775 1 82 803 1 114 803 1 7770 772 1",
    "7771 772 1 82 817 1 114 817 1 83 775 1 115 775 1 83 803 1 115 803 1 346 775 1 347 775 1 352",
    "775 1 353 775 1 7778 775 1 7779 775 1 84 775 1 116 775 1 84 803 1 116 803 1 84 817 1 116 817",
    "1 84 813 1 116 813 1 85 804 1 117 804 1 85 816 1 117 816 1 85 813 1 117 813 1 360 769 1 361",
    "769 1 362 776 1 363 776 1 86 771 1 118 771 1 86 803 1 118 803 1 87 768 1 119 768 1 87 769 1",
    "119 769 1 87 776 1 119 776 1 87 775 1 119 775 1 87 803 1 119 803 1 88 775 1 120 775 1 88 776",
    "1 120 776 1 89 775 1 121 775 1 90 770 1 122 770 1 90 803 1 122 803 1 90 817 1 122 817 1 104",
    "817 1 116 776 1 119 778 1 121 778 2 383 775 5 65 803 1 97 803 1 65 777 1 97 777 1 194 769 1",
    "226 769 1 194 768 1 226 768 1 194 777 1 226 777 1 194 771 1 226 771 1 7840 770 1 7841 770 1",
    "258 769 1 259 769 1 258 768 1 259 768 1 258 777 1 259 777 1 258 771 1 259 771 1 7840 774 1",
    "7841 774 1 69 803 1 101 803 1 69 777 1 101 777 1 69 771 1 101 771 1 202 769 1 234 769 1 202",
    "768 1 234 768 1 202 777 1 234 777 1 202 771 1 234 771 1 7864 770 1 7865 770 1 73 777 1 105",
    "777 1 73 803 1 105 803 1 79 803 1 111 803 1 79 777 1 111 777 1 212 769 1 244 769 1 212 768 1",
    "244 768 1 212 777 1 244 777 1 212 771 1 244 771 1 7884 770 1 7885 770 1 416 769 1 417 769 1",
    "416 768 1 417 768 1 416 777 1 417 777 1 416 771 1 417 771 1 416 803 1 417 803 1 85 803 1 117",
    "803 1 85 777 1 117 777 1 431 769 1 432 769 1 431 768 1 432 768 1 431 777 1 432 777 1 431 771",
    "1 432 771 1 431 803 1 432 803 1 89 768 1 121 768 1 89 803 1 121 803 1 89 777 1 121 777 1 89",
    "771 1 121 771 7 945 787 1 945 788 1 7936 768 1 7937 768 1 7936 769 1 7937 769 1 7936 834 1",
    "7937 834 1 913 787 1 913 788 1 7944 768 1 7945 768 1 7944 769 1 7945 769 1 7944 834 1 7945",
    "834 1 949 787 1 949 788 1 7952 768 1 7953 768 1 7952 769 1 7953 769 3 917 787 1 917 788 1",
    "7960 768 1 7961 768 1 7960 769 1 7961 769 3 951 787 1 951 788 1 7968 768 1 7969 768 1 7968",
    "769 1 7969 769 1 7968 834 1 7969 834 1 919 787 1 919 788 1 7976 768 1 7977 768 1 7976 769 1",
    "7977 769 1 7976 834 1 7977 834 1 953 787 1 953 788 1 7984 768 1 7985 768 1 7984 769 1 7985",
    "769 1 7984 834 1 7985 834 1 921 787 1 921 788 1 7992 768 1 7993 768 1 7992 769 1 7993 769 1",
    "7992 834 1 7993 834 1 959 787 1 959 788 1 8000 768 1 8001 768 1 8000 769 1 8001 769 3 927",
    "787 1 927 788 1 8008 768 1 8009 768 1 8008 769 1 8009 769 3 965 787 1 965 788 1 8016 768 1",
    "8017 768 1 8016 769 1 8017 769 1 8016 834 1 8017 834 2 933 788 2 8025 768 2 8025 769 2 8025",
    "834 1 969 787 1 969 788 1 8032 768 1 8033 768 1 8032 769 1 8033 769 1 8032 834 1 8033 834 1",
    "937 787 1 937 788 1 8040 768 1 8041 768 1 8040 769 1 8041 769 1 8040 834 1 8041 834 1 945",
    "768 2 949 768 2 951 768 2 953 768 2 959 768 2 965 768 2 969 768 4 7936 837 1 7937 837 1 7938",
    "837 1 7939 837 1 7940 837 1 7941 837 1 7942 837 1 7943 837 1 7944 837 1 7945 837 1 7946 837",
    "1 7947 837 1 7948 837 1 7949 837 1 7950 837 1 7951 837 1 7968 837 1 7969 837 1 7970 837 1",
    "7971 837 1 7972 837 1 7973 837 1 7974 837 1 7975 837 1 7976 837 1 7977 837 1 7978 837 1 7979",
    "837 1 7980 837 1 7981 837 1 7982 837 1 7983 837 1 8032 837 1 8033 837 1 8034 837 1 8035 837",
    "1 8036 837 1 8037 837 1 8038 837 1 8039 837 1 8040 837 1 8041 837 1 8042 837 1 8043 837 1",
    "8044 837 1 8045 837 1 8046 837 1 8047 837 1 945 774 1 945 772 1 8048 837 1 945 837 1 940 837",
    "2 945 834 1 8118 837 1 913 774 1 913 772 1 913 768 2 913 837 5 168 834 1 8052 837 1 951 837",
    "1 942 837 2 951 834 1 8134 837 1 917 768 2 919 768 2 919 837 1 8127 768 1 8127 769 1 8127",
    "834 1 953 774 1 953 772 1 970 768 4 953 834 1 970 834 1 921 774 1 921 772 1 921 768 3 8190",
    "768 1 8190 769 1 8190 834 1 965 774 1 965 772 1 971 768 2 961 787 1 961 788 1 965 834 1 971",
    "834 1 933 774 1 933 772 1 933 768 2 929 788 1 168 768 5 8060 837 1 969 837 1 974 837 2 969",
    "834 1 8182 837 1 927 768 2 937 768 2 937 837 414 8592 824 1 8594 824 19 8596 824 31 8656 824",
    "1 8660 824 1 8658 824 53 8707 824 5 8712 824 3 8715 824 24 8739 824 2 8741 824 27 8764 824 3",
    "8771 824 3 8773 824 2 8776 824 23 61 824 2 8801 824 11 8781 824 1 60 824 1 62 824 1 8804 824",
    "1 8805 824 3 8818 824 1 8819 824 3 8822 824 1 8823 824 7 8826 824 1 8827 824 3 8834 824 1",
    "8835 824 3 8838 824 1 8839 824 35 8866 824 1 8872 824 1 8873 824 1 8875 824 49 8828 824 1",
    "8829 824 1 8849 824 1 8850 824 7 8882 824 1 8883 824 1 8884 824 1 8885 824 3423 12363 12441",
    "2 12365 12441 2 12367 12441 2 12369 12441 2 12371 12441 2 12373 12441 2 12375 12441 2 12377",
    "12441 2 12379 12441 2 12381 12441 2 12383 12441 2 12385 12441 3 12388 12441 2 12390 12441 2",
    "12392 12441 7 12399 12441 1 12399 12442 2 12402 12441 1 12402 12442 2 12405 12441 1 12405",
    "12442 2 12408 12441 1 12408 12442 2 12411 12441 1 12411 12442 23 12358 12441 10 12445 12441",
    "14 12459 12441 2 12461 12441 2 12463 12441 2 12465 12441 2 12467 12441 2 12469 12441 2 12471",
    "12441 2 12473 12441 2 12475 12441 2 12477 12441 2 12479 12441 2 12481 12441 3 12484 12441 2",
    "12486 12441 2 12488 12441 7 12495 12441 1 12495 12442 2 12498 12441 1 12498 12442 2 12501",
    "12441 1 12501 12442 2 12504 12441 1 12504 12442 2 12507 12441 1 12507 12442 23 12454 12441 3",
    "12527 12441 1 12528 12441 1 12529 12441 1 12530 12441 4 12541 12441 54475 67026 775 27 67034",
    "775 2742 69785 69818 2 69787 69818 15 69797 69818 131 69937 69927 1 69938 69927 540 70471",
    "70462 1 70471 70487 55 70530 70601 2 70532 70587 9 70539 70594 3 70544 70601 52 70594 70594",
    "2 70594 70584 1 70594 70601 243 70841 70842 1 70841 70832 2 70841 70845 252 71096 71087 1",
    "71097 71087 893 71989 71984 18409 90398 90398 1 90398 90409 1 90398 90399 1 90409 90399 1",
    "90398 90400 1 90401 90399 1 90402 90399 1 90401 90400 3136 93543 93543 1 93539 93543 1 93545",
    "93543"
  ]

def triples : Nat → List Nat → List (Nat × Nat × Nat)
  | place, distance :: a :: b :: rest => (place + distance, a, b) :: triples (place + distance) rest
  | _, _ => []

def compositions : List (Nat × Nat × Nat) := triples 0 (numbers compositionLines)

def partsTable : Std.HashMap Nat (Nat × Nat) :=
  compositions.foldl (fun table (n, a, b) => table.insert n (a, b)) {}

def composedTable : Std.HashMap (Nat × Nat) Nat :=
  compositions.foldl (fun table (n, a, b) => table.insert (a, b) n) {}

/-! Syllables of Hangul are composed of two or three letters by their numbers. -/

def syllableBase : Nat := 0xAC00
def syllableCount : Nat := 11172

/-- The two parts of a composed character. A syllable of three letters is one of two and a third. -/
def parts? (n : Nat) : Option (Nat × Nat) :=
  if syllableBase ≤ n ∧ n < syllableBase + syllableCount then
    let i := n - syllableBase
    if i % 28 = 0 then some (0x1100 + i / 588, 0x1161 + i % 588 / 28)
    else some (n - i % 28, 0x11A7 + i % 28)
  else partsTable.get? n

/-- The character composed of two. -/
def composed? (a b : Nat) : Option Nat :=
  if 0x1100 ≤ a ∧ a < 0x1113 ∧ 0x1161 ≤ b ∧ b < 0x1176 then
    some (syllableBase + ((a - 0x1100) * 21 + (b - 0x1161)) * 28)
  else if syllableBase ≤ a ∧ a < syllableBase + syllableCount ∧ (a - syllableBase) % 28 = 0
      ∧ 0x11A7 < b ∧ b < 0x11C3 then
    some (a + (b - 0x11A7))
  else composedTable.get? (a, b)

/-- A character taken apart as far as possible; `fuel` bounds the levels. -/
def decompose : Nat → Nat → List Nat
  | 0, n => [n]
  | fuel + 1, n =>
    match parts? n with
    | some (a, b) => decompose fuel a ++ decompose fuel b
    | none => [n]

/-- Puts a mark in front of a text in order, behind the marks there of lower classes. -/
def insertMark (n : Nat) : List Nat → List Nat
  | [] => [n]
  | m :: rest =>
    let k := combiningClass m
    if k ≠ 0 ∧ k < combiningClass n then m :: insertMark n rest else n :: m :: rest

/-- Orders the marks between any two other characters by their classes. -/
def order : List Nat → List Nat
  | [] => []
  | n :: rest => if combiningClass n = 0 then n :: order rest else insertMark n (order rest)

/-- Composes characters with what follows them. `starter` is what marks can join, `waiting` holds
the marks behind it that did not, latest first. -/
def compose : Option Nat → List Nat → List Nat → List Nat
  | starter, waiting, [] => starter.toList ++ waiting.reverse
  | none, waiting, n :: rest =>
    if combiningClass n = 0 then waiting.reverse ++ compose (some n) [] rest
    else compose none (n :: waiting) rest
  | some s, waiting, n :: rest =>
    let k := combiningClass n
    let free := match waiting with
      | [] => true
      | m :: _ => combiningClass m < k
    match if free then composed? s n else none with
    | some c => compose (some c) waiting rest
    | none =>
      if k = 0 then s :: waiting.reverse ++ compose (some n) [] rest
      else compose (some s) (n :: waiting) rest

/-- The composed normal form. -/
def normalize (text : List Char) : List Char :=
  if text.all (·.toNat < 0x300) then text
  else
    let points := order (text.flatMap fun c => decompose 8 c.toNat)
    (compose none [] points).map Char.ofNat

end Normalization

end Polyglot.Unicode
