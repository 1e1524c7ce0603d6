import Polyloom.Text.Ranges

/-!
Word characters: the letters and numbers of every script, and the underscore.
-/

namespace Polyloom.Text

def wordRanges : List (Nat × Nat) :=
  rangesIn ".2K1721132131n1v1.7o4ce57111.2551224116113111k1.1l1.2f8.2G1C216F.19r44JHla421.1B11f27f2
    1g11ut.1rb1eH92415m419131np7b5o16hGWS31i17a4a1g48222m17113431g1d2134c262186422m17121212v4117a23
    g9131m17121531i1f24a91b8222m17121531u2134a17b116331432111232333cm1ldi8131n1g31q321224a871148131
    n1a1531v2124a12h9131F21g1531a4j165i3o191127vahM12c79aD211151o111a129125119a24w1vkc81Ar5.1RHkb66
    443132734dc11a6C11512H1.5n142711142F142x142711142f1V142.15ek3gg.1o263.a02h1q5.1d3b7idjeied13fQz
    1413a6ama6.1r752y115.18avDE25bI4q6bBn9RHa6ad1.1vLh83aFudUqAsa3N297H23F41612315.36.12.4u262C2628
    1111111v2R1711331734264d5317.1R2265b6d.1D1412a1135611111141b2455411W.bIY.1gm.aau.ig.3H6432912C1
    1512U71gn9717171717171717.1i1.7z3p975254.1o631.1s145H1.1w34awMgwau81fwaDf.5a:1Ik.12:5Ln.15K2.4l
    3skLgv2.1iD92.1F2.12521115og13141nd6aQeOsao631121Canpt7Lsb651p1Fn3184a6n313O1132252111o32b73c62
    62697171H1e6.1Rda6:2Uccn4N:2ck.5U2.1IC7c5511a1d151112121.1Kx.5Ri.122SEc.1S51.2bja7q6qb.1r362626
    23zc1q1j121f2ey.1ZcJcVh2.3Wt3Ngr4A9u5Cau2A4815G.2y2a6A4A4E8Qcb1f17121b1f1712.15.519ma8o61G19.17
    6211I12312n2v2C89Mj125x4q.18U4k2Lf4131ta9nv1ww81s65gSam2r5qn7.1i.1bTPdP7Gca.4Kv1G62.1gE8mb4riKs
    kncRqu1221dJwp7a9Afa41218z31cMe4bb114kbi1p.1m711141f1a7Lhab8222m17121531i1c5.2yRi45a53uMk2118a
    .2GLF4AMk1baCHd17aSrlc47.2ZI.1S.1lc82128121of111ea.1882Dg111s1aE71l1bKj1i.1b.4f91Bh1ft5u.1O7121
    Cl19a66121we17a.50j.331flH.eS.1E.1Nh.3a.Gw.1zf.hh:13j.9p:2ff.9b7v1a6.1h1a6uiMg4ca171l5j.b6.1p
    .1H.1d51.14d.12211s:1AY8.jYG9:2k7417121.4HJ3h48.6o.Be.1J5d397a:1tYk.1Kp.2b.1n1.19122122241c1117
    1.131428171s141511371.5u2p1p1v1p1v1p1v1p1v1p182O.sUv.7LJa72a41.5buiI4a.ke714121f1.3b29M.16714a
    .cLX1314.1eJ1f.3841r1211211a141111614111111312112111111111121124171414111a1h53151h.9md.IXa.gC
    :b72w:14Z7.3A2:1uWe:1Wx.O3.8K.oi:1hF"

def isWord (c : Char) : Bool :=
  let n := c.toNat
  if n < 128 then c.isAlphanum || c = '_'
  else wordRanges.any fun (low, high) => low ≤ n && n ≤ high

end Polyloom.Text
