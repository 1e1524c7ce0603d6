import Polyloom.Text.Ranges

/-!
Which characters are shown as themselves inside quoted text.

Beyond the visible characters of seven-bit text, everything is shown except separators,
control and format characters, surrogates, private-use and unassigned code points.
-/

namespace Polyloom.Text

/-- The ranges of code points from 128 on that are not shown as themselves, ascending. -/
def hiddenRanges : List (Nat × Nat) :=
  rangesIn ".24xc1.bw2647111k1.6p1C2O231T8r46hm1.361M2X2.1DeX2N2f1s211b5v9.1c1.2B18222m171134292224
    8142152p2316422m17121212211542233174117ha319131m1712152a131321f42c771318222m1712152922237342152
    ia216331432111232333c4533142161el5d131n1g291314721321242a7m131n1a152913147262142a12dd131P13164g
    2q131i3o191127314611186a23cW4tB211151o111n2511162a24w.1a1A4D1A1f1dB.3c11512.65142711142F142x142
    711142f1V142.152w3q6.1o262.ak1s3.1r7m9o9kcd1312c.1w2a6a6e1b6.1r7H5.18av1c4c413G25bI4q6b3.102.13
    1t2b6a6e2vN.1f3L1.1S8Y3f3Y7H2b8H5.8C262C26281111111v2R1f1e261j2319ho8Lh22r1d3xfxf.2g4.aHpbl.te2
    w1.5D5J11512U72eo97171717171717171.22yq1.1rc.3sqc5.111.1o2.1F5H1.1w1.1mcL1:7Ct3T9.5Ck.2Y8.3h521
    115oX3a6U8.188c6.1Sbu3.1g1b4x1T9e2a2.1Fosa6262697171Y4.222a6:2Uccn4N:2ck.5U2.1IC7c55q151112121
    .21g.7b2S71wG6P1j14451.2b4.34362626233717d22c1q1j121f2ey.1Z534J3.1q1d31LK.26t3Nfs4A9u5H5u1B4eG
    .2y2a6A4A4E8Qbc1f17121b1f1712.15.519ma8o61G19.176211I12312n1.1a89Mj125x3r51.12U4k2O1258131t234a
    797.12wD4c9S3t2r5q74c7.1i.1bTPdP7K8a.4Kv1G1322.1gE8GmqCskn9.1g4A9.1015dp7a6R1i8D9.1y1kbi1I.1371
    1141f1b6X5a6418222m1712151a22232161572735.2f.1u15u.1a8a.2GS2Cy.17ba6djW6aSr2f4n.2ZY.1C.1lc82128
    121u122c9a.1882K2br.1a8.1ld.1b.4f91J1eat3w2m1e.1b7121I3112198a66121B12167a.50p.2X1fOd.eT.1E.1N1
    5b.3a.Gw.1Bd.hh:13j.9p:2ff.9b7v1a4.1j1a6u26a.18aa171l5j.b6.1t.1D.1d4V7h.125b2e:1AY8.jYG9:2k7417
    121.4HJ3h48.6o.Be.1J5d397a24:1dSK2n9.1SY.3YaD2.1c8.1Ol.18.2ukc.1p9p.2b.1n1.19122122241c11171.13
    1428171s141511371.5u2.4I2.bkf51f.hOv.3D71h271215.3rJ3e2a42.5avhW51.k8714121f1.3b2gF.1e4a42.cF
    .16.1eZ.3841r1211211a141111614111111312112111111111121124171414111a1h53151hQ2.4mI4.1Ccf2f1f1Ba
    .2OUtdI4972e6.2u.fS5g3d3.1Sc.1r7c41fc4U8a6E8u22.1g.5uce2535379t3b56aa68879.2n1TBa.gC:b72w:14Z7
    .3A2:1uWe:1Wx.O3.8K.oi:1hF;30jP.3S:P16"

def isPrintable (c : Char) : Bool :=
  let n := c.toNat
  if n < 128 then 32 ≤ n && n < 127
  else !(hiddenRanges.any fun (low, high) => low ≤ n && n ≤ high)

end Polyloom.Text
