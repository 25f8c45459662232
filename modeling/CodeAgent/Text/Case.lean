import CodeAgent.Text.Basic
import CodeAgent.Text.Range

namespace CodeAgent

namespace Text

private def lowerRuns : Runs := ⟨#[
  65, 192, 216, 256, 304, 306, 313, 330, 376, 377, 385, 386, 390, 391,
  393, 395, 398, 399, 400, 401, 403, 404, 406, 407, 408, 412, 413, 415,
  416, 422, 423, 425, 428, 430, 431, 433, 435, 439, 440, 444, 452, 453,
  455, 456, 458, 459, 478, 497, 498, 502, 503, 504, 544, 546, 570, 571,
  573, 574, 577, 579, 580, 581, 582, 880, 886, 895, 902, 904, 908, 910,
  913, 931, 975, 984, 1012, 1015, 1017, 1018, 1021, 1024, 1040, 1120, 1162, 1216,
  1217, 1232, 1329, 4256, 4295, 4301, 5024, 5104, 7312, 7357, 7680, 7838, 7840, 7944,
  7960, 7976, 7992, 8008, 8025, 8040, 8072, 8088, 8104, 8120, 8122, 8124, 8136, 8140,
  8152, 8154, 8168, 8170, 8172, 8184, 8186, 8188, 8486, 8490, 8491, 8498, 8544, 8579,
  9398, 11264, 11360, 11362, 11363, 11364, 11367, 11373, 11374, 11375, 11376, 11378, 11381, 11390,
  11392, 11499, 11506, 42560, 42624, 42786, 42802, 42873, 42877, 42878, 42891, 42893, 42896, 42902,
  42922, 42923, 42924, 42925, 42926, 42928, 42929, 42930, 42931, 42932, 42948, 42949, 42950, 42951,
  42960, 42966, 42997, 65313, 66560, 66736, 66928, 66940, 66956, 66964, 68736, 71840, 93760, 125184], #[
  (90, 1, 32), (214, 1, 32), (222, 1, 32), (302, 2, 1), (304, 1, -199), (310, 2, 1),
  (327, 2, 1), (374, 2, 1), (376, 1, -121), (381, 2, 1), (385, 1, 210), (388, 2, 1),
  (390, 1, 206), (391, 1, 1), (394, 1, 205), (395, 1, 1), (398, 1, 79), (399, 1, 202),
  (400, 1, 203), (401, 1, 1), (403, 1, 205), (404, 1, 207), (406, 1, 211), (407, 1, 209),
  (408, 1, 1), (412, 1, 211), (413, 1, 213), (415, 1, 214), (420, 2, 1), (422, 1, 218),
  (423, 1, 1), (425, 1, 218), (428, 1, 1), (430, 1, 218), (431, 1, 1), (434, 1, 217),
  (437, 2, 1), (439, 1, 219), (440, 1, 1), (444, 1, 1), (452, 1, 2), (453, 1, 1),
  (455, 1, 2), (456, 1, 1), (458, 1, 2), (475, 2, 1), (494, 2, 1), (497, 1, 2),
  (500, 2, 1), (502, 1, -97), (503, 1, -56), (542, 2, 1), (544, 1, -130), (562, 2, 1),
  (570, 1, 10795), (571, 1, 1), (573, 1, -163), (574, 1, 10792), (577, 1, 1), (579, 1, -195),
  (580, 1, 69), (581, 1, 71), (590, 2, 1), (882, 2, 1), (886, 1, 1), (895, 1, 116),
  (902, 1, 38), (906, 1, 37), (908, 1, 64), (911, 1, 63), (929, 1, 32), (939, 1, 32),
  (975, 1, 8), (1006, 2, 1), (1012, 1, -60), (1015, 1, 1), (1017, 1, -7), (1018, 1, 1),
  (1023, 1, -130), (1039, 1, 80), (1071, 1, 32), (1152, 2, 1), (1214, 2, 1), (1216, 1, 15),
  (1229, 2, 1), (1326, 2, 1), (1366, 1, 48), (4293, 1, 7264), (4295, 1, 7264), (4301, 1, 7264),
  (5103, 1, 38864), (5109, 1, 8), (7354, 1, -3008), (7359, 1, -3008), (7828, 2, 1), (7838, 1, -7615),
  (7934, 2, 1), (7951, 1, -8), (7965, 1, -8), (7983, 1, -8), (7999, 1, -8), (8013, 1, -8),
  (8031, 2, -8), (8047, 1, -8), (8079, 1, -8), (8095, 1, -8), (8111, 1, -8), (8121, 1, -8),
  (8123, 1, -74), (8124, 1, -9), (8139, 1, -86), (8140, 1, -9), (8153, 1, -8), (8155, 1, -100),
  (8169, 1, -8), (8171, 1, -112), (8172, 1, -7), (8185, 1, -128), (8187, 1, -126), (8188, 1, -9),
  (8486, 1, -7517), (8490, 1, -8383), (8491, 1, -8262), (8498, 1, 28), (8559, 1, 16), (8579, 1, 1),
  (9423, 1, 26), (11311, 1, 48), (11360, 1, 1), (11362, 1, -10743), (11363, 1, -3814), (11364, 1, -10727),
  (11371, 2, 1), (11373, 1, -10780), (11374, 1, -10749), (11375, 1, -10783), (11376, 1, -10782), (11378, 1, 1),
  (11381, 1, 1), (11391, 1, -10815), (11490, 2, 1), (11501, 2, 1), (11506, 1, 1), (42604, 2, 1),
  (42650, 2, 1), (42798, 2, 1), (42862, 2, 1), (42875, 2, 1), (42877, 1, -35332), (42886, 2, 1),
  (42891, 1, 1), (42893, 1, -42280), (42898, 2, 1), (42920, 2, 1), (42922, 1, -42308), (42923, 1, -42319),
  (42924, 1, -42315), (42925, 1, -42305), (42926, 1, -42308), (42928, 1, -42258), (42929, 1, -42282),
  (42930, 1, -42261),
  (42931, 1, 928), (42946, 2, 1), (42948, 1, -48), (42949, 1, -42307), (42950, 1, -35384), (42953, 2, 1),
  (42960, 1, 1), (42968, 2, 1), (42997, 1, 1), (65338, 1, 32), (66599, 1, 40), (66771, 1, 40),
  (66938, 1, 39), (66954, 1, 39), (66962, 1, 39), (66965, 1, 39), (68786, 1, 64), (71871, 1, 32),
  (93791, 1, 32), (125217, 1, 34)]⟩

private def upperRuns : Runs := ⟨#[
  97, 181, 223, 224, 248, 255, 257, 305, 307, 314, 329, 331, 378, 383,
  384, 387, 392, 396, 402, 405, 409, 410, 414, 417, 424, 429, 432, 436,
  441, 445, 447, 453, 454, 456, 457, 459, 460, 462, 477, 479, 496, 498,
  499, 501, 505, 547, 572, 575, 578, 583, 592, 593, 594, 595, 596, 598,
  601, 603, 604, 608, 609, 611, 613, 614, 616, 617, 618, 619, 620, 623,
  625, 626, 629, 637, 640, 642, 643, 647, 648, 649, 650, 652, 658, 669,
  670, 837, 881, 887, 891, 912, 940, 941, 944, 945, 962, 963, 972, 973,
  976, 977, 981, 982, 983, 985, 1008, 1009, 1010, 1011, 1013, 1016, 1019, 1072,
  1104, 1121, 1163, 1218, 1231, 1233, 1377, 1415, 4304, 4349, 5112, 7296, 7297, 7298,
  7299, 7301, 7302, 7303, 7304, 7545, 7549, 7566, 7681, 7830, 7831, 7832, 7833, 7834,
  7835, 7841, 7936, 7952, 7968, 7984, 8000, 8016, 8017, 8018, 8019, 8020, 8021, 8022,
  8023, 8032, 8048, 8050, 8054, 8056, 8058, 8060, 8064, 8072, 8080, 8088, 8096, 8104,
  8112, 8115, 8116, 8118, 8119, 8124, 8126, 8130, 8131, 8132, 8134, 8135, 8140, 8144,
  8146, 8147, 8150, 8151, 8160, 8162, 8163, 8164, 8165, 8166, 8167, 8178, 8179, 8180,
  8182, 8183, 8188, 8526, 8560, 8580, 9424, 11312, 11361, 11365, 11366, 11368, 11379, 11382,
  11393, 11500, 11507, 11520, 11559, 11565, 42561, 42625, 42787, 42803, 42874, 42879, 42892, 42897,
  42900, 42903, 42933, 42952, 42961, 42967, 42998, 43859, 43888, 64256, 64257, 64258, 64259, 64260,
  64261, 64262, 64275, 64276, 64277, 64278, 64279, 65345, 66600, 66776, 66967, 66979, 66995, 67003,
  68800, 71872, 93792, 125218], #[
  (122, 1, -32), (181, 1, 743), (223, 1, -140), (246, 1, -32), (254, 1, -32), (255, 1, 121),
  (303, 2, -1), (305, 1, -232), (311, 2, -1), (328, 2, -1), (329, 1, 371), (375, 2, -1),
  (382, 2, -1), (383, 1, -300), (384, 1, 195), (389, 2, -1), (392, 1, -1), (396, 1, -1),
  (402, 1, -1), (405, 1, 97), (409, 1, -1), (410, 1, 163), (414, 1, 130), (421, 2, -1),
  (424, 1, -1), (429, 1, -1), (432, 1, -1), (438, 2, -1), (441, 1, -1), (445, 1, -1),
  (447, 1, 56), (453, 1, -1), (454, 1, -2), (456, 1, -1), (457, 1, -2), (459, 1, -1),
  (460, 1, -2), (476, 2, -1), (477, 1, -79), (495, 2, -1), (496, 1, -422), (498, 1, -1),
  (499, 1, -2), (501, 1, -1), (543, 2, -1), (563, 2, -1), (572, 1, -1), (576, 1, 10815),
  (578, 1, -1), (591, 2, -1), (592, 1, 10783), (593, 1, 10780), (594, 1, 10782), (595, 1, -210),
  (596, 1, -206), (599, 1, -205), (601, 1, -202), (603, 1, -203), (604, 1, 42319), (608, 1, -205),
  (609, 1, 42315), (611, 1, -207), (613, 1, 42280), (614, 1, 42308), (616, 1, -209), (617, 1, -211),
  (618, 1, 42308), (619, 1, 10743), (620, 1, 42305), (623, 1, -211), (625, 1, 10749), (626, 1, -213),
  (629, 1, -214), (637, 1, 10727), (640, 1, -218), (642, 1, 42307), (643, 1, -218), (647, 1, 42282),
  (648, 1, -218), (649, 1, -69), (651, 1, -217), (652, 1, -71), (658, 1, -219), (669, 1, 42261),
  (670, 1, 42258), (837, 1, 84), (883, 2, -1), (887, 1, -1), (893, 1, 130), (912, 1, 9),
  (940, 1, -38), (943, 1, -37), (944, 1, -11), (961, 1, -32), (962, 1, -31), (971, 1, -32),
  (972, 1, -64), (974, 1, -63), (976, 1, -62), (977, 1, -57), (981, 1, -47), (982, 1, -54),
  (983, 1, -8), (1007, 2, -1), (1008, 1, -86), (1009, 1, -80), (1010, 1, 7), (1011, 1, -116),
  (1013, 1, -96), (1016, 1, -1), (1019, 1, -1), (1103, 1, -32), (1119, 1, -80), (1153, 2, -1),
  (1215, 2, -1), (1230, 2, -1), (1231, 1, -15), (1327, 2, -1), (1414, 1, -48), (1415, 1, -82),
  (4346, 1, 3008), (4351, 1, 3008), (5117, 1, -8), (7296, 1, -6254), (7297, 1, -6253), (7298, 1, -6244),
  (7300, 1, -6242), (7301, 1, -6243), (7302, 1, -6236), (7303, 1, -6181), (7304, 1, 35266), (7545, 1, 35332),
  (7549, 1, 3814), (7566, 1, 35384), (7829, 2, -1), (7830, 1, -7758), (7831, 1, -7747), (7832, 1, -7745),
  (7833, 1, -7744), (7834, 1, -7769), (7835, 1, -59), (7935, 2, -1), (7943, 1, 8), (7957, 1, 8),
  (7975, 1, 8), (7991, 1, 8), (8005, 1, 8), (8016, 1, -7083), (8017, 1, 8), (8018, 1, -7085),
  (8019, 1, 8), (8020, 1, -7087), (8021, 1, 8), (8022, 1, -7089), (8023, 1, 8), (8039, 1, 8),
  (8049, 1, 74), (8053, 1, 86), (8055, 1, 100), (8057, 1, 128), (8059, 1, 112), (8061, 1, 126),
  (8071, 1, -120), (8079, 1, -128), (8087, 1, -104), (8095, 1, -112), (8103, 1, -56), (8111, 1, -64),
  (8114, 1, 8), (8115, 1, -7202), (8116, 1, -7214), (8118, 1, -7205), (8119, 1, -7206), (8124, 1, -7211),
  (8126, 1, -7205), (8130, 1, 8), (8131, 1, -7212), (8132, 1, -7227), (8134, 1, -7215), (8135, 1, -7216),
  (8140, 1, -7221), (8145, 1, 8), (8146, 1, -7225), (8147, 1, -7226), (8150, 1, -7229), (8151, 1, -7230),
  (8161, 1, 8), (8162, 1, -7229), (8163, 1, -7230), (8164, 1, -7235), (8165, 1, 7), (8166, 1, -7233),
  (8167, 1, -7234), (8178, 1, 8), (8179, 1, -7242), (8180, 1, -7269), (8182, 1, -7245), (8183, 1, -7246),
  (8188, 1, -7251), (8526, 1, -28), (8575, 1, -16), (8580, 1, -1), (9449, 1, -26), (11359, 1, -48),
  (11361, 1, -1), (11365, 1, -10795), (11366, 1, -10792), (11372, 2, -1), (11379, 1, -1), (11382, 1, -1),
  (11491, 2, -1), (11502, 2, -1), (11507, 1, -1), (11557, 1, -7264), (11559, 1, -7264), (11565, 1, -7264),
  (42605, 2, -1), (42651, 2, -1), (42799, 2, -1), (42863, 2, -1), (42876, 2, -1), (42887, 2, -1),
  (42892, 1, -1), (42899, 2, -1), (42900, 1, 48), (42921, 2, -1), (42947, 2, -1), (42954, 2, -1),
  (42961, 1, -1), (42969, 2, -1), (42998, 1, -1), (43859, 1, -928), (43967, 1, -38864), (64256, 1, -64186),
  (64257, 1, -64187), (64258, 1, -64188), (64259, 1, -64189), (64260, 1, -64190), (64261, 1, -64178),
  (64262, 1, -64179),
  (64275, 1, -62927), (64276, 1, -62928), (64277, 1, -62929), (64278, 1, -62920), (64279, 1, -62931), (65370, 1, -32),
  (66639, 1, -40), (66811, 1, -40), (66977, 1, -39), (66993, 1, -39), (67001, 1, -39), (67004, 1, -39),
  (68850, 1, -64), (71903, 1, -32), (93823, 1, -32), (125251, 1, -34)]⟩

end Text

/-- The lower-case partner; of one with several code points, the first. -/
def CodePoint.lower (c : CodePoint) : CodePoint :=
  if c.val < 128 then (if c.isUpperAscii then .ofNat (c.val + 32) else c)
  else .ofNat (Text.lowerRuns.apply c.val)

/-- The upper-case partner; of one with several code points, the first. -/
def CodePoint.upper (c : CodePoint) : CodePoint :=
  if c.val < 128 then (if c.isLowerAscii then .ofNat (c.val - 32) else c)
  else .ofNat (Text.upperRuns.apply c.val)

def CodePoint.isCased (c : CodePoint) : Bool := c.lower ≠ c || c.upper ≠ c

namespace Text

/-- The only code point whose lower-case form is longer than itself is the dotted capital I. -/
def lower (t : Text) : Text :=
  t.flatMap fun c => if c.val = 0x130 then [CodePoint.ofNat 0x69, CodePoint.ofNat 0x307] else [c.lower]

def upperAscii (t : Text) : Text := t.map fun c => if c.isLowerAscii then c.upper else c

end Text
end CodeAgent
