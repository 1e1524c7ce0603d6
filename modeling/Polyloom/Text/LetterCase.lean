import Polyloom.Text.Ranges

/-!
Letter case beyond seven-bit text: ranges of code points whose lower or title form lies at
a fixed distance, and the few characters with a form of several characters.
-/

namespace Polyloom.Text

/-- First and last code point, step, and distance, from the runs for each distance and step. -/
def caseRanges (groups : List (Int × Nat × String)) : List (Nat × Nat × Nat × Int) :=
  groups.flatMap fun (distance, step, runs) =>
    (rangesIn runs).map fun (low, high) => (low, high, step, distance)

def lowerRanges : List (Nat × Nat × Nat × Int) :=
  caseRanges [(32, 1, ".13q.1Dn17.b8h19.1Cw:gI9q:1GRw:5H2w"), (1, 2, ".48L352f2J2543r5e3lh2h333D3hj
    9.4F3.1Dn.1Px9R2d2.1x:1Et.2pb.1x.Tm5k.1B83:84WJjr.2bd3Za329933jbf43c3"), (-121, 1, ".641"),
    (210, 1, ".6d1"), (206, 1, ".6i1"),
    (1, 1, ".6j1315161e1412181318121.1Q151.4Y1.24121:1XW1.IQ1h121.201:8ac1.161A1"),
    (205, 1, ".6l281"), (79, 1, ".6q1"), (202, 1, ".6r1"), (203, 1, ".6s1"), (207, 1, ".6w1"),
    (211, 1, ".6y151"), (209, 1, ".6z1"), (213, 1, ".6F1"), (214, 1, ".6H1"), (218, 1, ".6O12141"),
    (217, 1, ".6Z2"), (219, 1, ".751"), (2, 1, ".7i12121C1"), (-97, 1, ".861"), (-56, 1, ".871"),
    (-130, 1, ".8M1.7G3"), (10795, 1, ".9c1"), (-163, 1, ".9f1"), (10792, 1, ".9g1"),
    (-195, 1, ".9l1"), (69, 1, ".9m1"), (71, 1, ".9n1"), (116, 1, ".er1"), (38, 1, ".ey1"),
    (37, 1, ".eA3"), (64, 1, ".eE1:hDZP"), (63, 1, ".eG2"), (8, 1, ".fJ1:14A6"), (-60, 1, ".gk1"),
    (-7, 1, ".gp1:1Ro1"), (80, 1, ".gwg"), (15, 1, ".jC1"), (48, 1, ".lrC:2zDM"),
    (7264, 1, ":16EC1151"), (38864, 1, ":1j2.1i"), (-3008, 1, ":1TWH23"), (-7615, 1, ":22q1"),
    (-8, 1, ":248886a88886q8o8888882u2e2"), (-8, 2, ":25r7"), (-74, 1, ":2702"),
    (-9, 1, ":2721f1L1"), (-86, 1, ":27e4"), (-100, 1, ":27w2"), (-112, 1, ":27M2"),
    (-128, 1, ":2802"), (-126, 1, ":2822"), (-7517, 1, ":2cS1"), (-8383, 1, ":2cW1"),
    (-8262, 1, ":2cX1"), (28, 1, ":2d41"), (16, 1, ":2dOg"), (26, 1, ":2rAq"), (-10743, 1, ":2Xg1"),
    (-3814, 1, ":2Xh1"), (-10727, 1, ":2Xi1"), (-10780, 1, ":2Xr1"), (-10749, 1, ":2Xs1"),
    (-10783, 1, ":2Xt1"), (-10782, 1, ":2Xu1"), (-10815, 1, ":2XI2"), (-35332, 1, ":b9z1"),
    (-42280, 1, ":b9P1"), (-42308, 1, ":bai131"), (-42319, 1, ":baj1"), (-42315, 1, ":bak1"),
    (-42305, 1, ":bal1"), (-42258, 1, ":bao1"), (-42282, 1, ":bap1"), (-42261, 1, ":baq1"),
    (928, 1, ":bar1"), (-48, 1, ":baI1"), (-42307, 1, ":baJ1"), (-35384, 1, ":baK1"),
    (40, 1, ":hjyE.2cA"), (39, 1, ":hpub1f1712"), (34, 1, ":wz6y")]

def titleRanges : List (Nat × Nat × Nat × Int) :=
  caseRanges [(-32, 1, ".1zq.1Dn17.b8h19.1Cw:gI9q:1GRw:5H2w"), (743, 1, ".2V1"), (121, 1, ".471"),
    (-1, 2, ".49L352f2J2543r5e3lh2h333D3hj9.4F3.1Dn.1Px9R2d2.1x:1Et.2pb.1x.Tm5k.1B83:84WJjr.2bd3Za3
    29933jbf43c3"), (-232, 1, ".4V1"), (-300, 1, ".6b1"), (195, 1, ".6c1"),
    (-1, 1, ".6k1315161e1412181318121.1Q151.4Y1.24121:1XW1.IQ1h121.201:8ac1.161A1"),
    (97, 1, ".6x1"), (163, 1, ".6C1"), (130, 1, ".6G1.7G3"), (56, 1, ".7d1"), (1, 1, ".7i12121C1"),
    (-79, 1, ".7H1"), (10815, 1, ".9h2"), (10783, 1, ".9y1"), (10780, 1, ".9z1"),
    (10782, 1, ".9A1"), (-210, 1, ".9B1"), (-206, 1, ".9C1"), (-205, 1, ".9E281"),
    (-202, 1, ".9H1"), (-203, 1, ".9J1"), (42319, 1, ".9K1"), (42315, 1, ".9P1"), (-207, 1, ".9R1"),
    (42280, 1, ".9T1"), (42308, 1, ".9U131"), (-209, 1, ".9W1"), (-211, 1, ".9X151"),
    (10743, 1, ".9Z1"), (42305, 1, ".a01"), (10749, 1, ".a51"), (-213, 1, ".a61"),
    (-214, 1, ".a91"), (10727, 1, ".ah1"), (-218, 1, ".ak12141"), (42307, 1, ".am1"),
    (42282, 1, ".ar1"), (-69, 1, ".at1"), (-217, 1, ".au2"), (-71, 1, ".aw1"), (-219, 1, ".aC1"),
    (42261, 1, ".aN1"), (42258, 1, ".aO1"), (84, 1, ".dv1"), (-38, 1, ".fa1"), (-37, 1, ".fb3"),
    (-31, 1, ".fw1"), (-64, 1, ".fG1:hDZP"), (-63, 1, ".fH2"), (-62, 1, ".fK1"), (-57, 1, ".fL1"),
    (-47, 1, ".fP1"), (-54, 1, ".fQ1"), (-8, 1, ".fR1:14A6"), (-86, 1, ".gg1"),
    (-80, 1, ".gh1.1wg"), (7, 1, ".gi1:1Ro1"), (-116, 1, ".gj1"), (-96, 1, ".gl1"),
    (-15, 1, ".jR1"), (-48, 1, ".mdC:2zDM"), (-6254, 1, ":1TG1"), (-6253, 1, ":1TH1"),
    (-6244, 1, ":1TI1"), (-6242, 1, ":1TJ2"), (-6243, 1, ":1TL1"), (-6236, 1, ":1TM1"),
    (-6181, 1, ":1TN1"), (35266, 1, ":1TO1"), (35332, 1, ":1XH1"), (3814, 1, ":1XL1"),
    (35384, 1, ":1Y21"), (-59, 1, ":22n1"), (8, 1, ":240886a88886q8o8888882u2e2"), (8, 2, ":25j7"),
    (74, 1, ":25O2"), (86, 1, ":25Q4"), (100, 1, ":25U2"), (128, 1, ":25W2"), (112, 1, ":25Y2"),
    (126, 1, ":2602"), (9, 1, ":26T1f1L1"), (-7205, 1, ":2741"), (-28, 1, ":2dw1"),
    (-16, 1, ":2e4g"), (-26, 1, ":2s0q"), (-10795, 1, ":2Xj1"), (-10792, 1, ":2Xk1"),
    (-7264, 1, ":2ZOC1151"), (48, 1, ":b9W1"), (-928, 1, ":bpp1"), (-38864, 1, ":bpS.1i"),
    (-40, 1, ":hkcE.2cA"), (-39, 1, ":hq7b1f1712"), (-34, 1, ":wzEy")]

/-- Characters with forms of their own, each in front of its form. -/
def specialForms (words : String) : List (Char × List Char) :=
  (words.toList.splitBy fun _ c => !c.isWhitespace).filterMap fun word =>
    match word.filter (!·.isWhitespace) with
    | c :: form => some (c, form)
    | [] => none

def lowerSpecial : List (Char × List Char) := specialForms "İi̇"

def titleSpecial : List (Char × List Char) :=
  specialForms "ßSs ŉʼN ǰJ̌ ΐΪ́ ΰΫ́ ևԵւ ẖH̱ ẗT̈ ẘW̊ ẙY̊ ẚAʾ ὐΥ̓ ὒΥ̓̀ ὔΥ̓́ ὖΥ̓͂ ᾲᾺͅ ᾴΆͅ
    ᾶΑ͂ ᾷᾼ͂ ῂῊͅ ῄΉͅ ῆΗ͂ ῇῌ͂ ῒΪ̀ ΐΪ́ ῖΙ͂ ῗΪ͂ ῢΫ̀ ΰΫ́ ῤΡ̓ ῦΥ͂ ῧΫ͂ ῲῺͅ ῴΏͅ ῶΩ͂ ῷῼ͂
    ﬀFf ﬁFi ﬂFl ﬃFfi ﬄFfl ﬅSt ﬆSt ﬓՄն ﬔՄե ﬕՄի ﬖՎն ﬗՄխ"

def caseForm (ranges : List (Nat × Nat × Nat × Int)) (special : List (Char × List Char))
    (c : Char) : List Char :=
  let n := c.toNat
  match special.lookup c with
  | some form => form
  | none =>
    match ranges.find? fun (low, high, step, _) => low ≤ n && n ≤ high && (n - low) % step == 0 with
    | some (_, _, _, distance) => [Char.ofNat ((n : Int) + distance).toNat]
    | none => [c]

def lowerForm : Char → List Char := caseForm lowerRanges lowerSpecial

def titleForm : Char → List Char := caseForm titleRanges titleSpecial

def capitalize (text : String) : String :=
  match text.toList with
  | [] => ""
  | c :: rest => String.ofList (titleForm c ++ rest.flatMap lowerForm)

end Polyloom.Text
