import Polyloom.Proofs.Pass.Grammar

/-!
# Names of passes and options

The names of the catalog are words of small letters, digits and underscores.  In texts they have
dashes for their underscores, which makes keys of the grammar out of them and keeps them apart.
-/

namespace Polyloom.Pipeline

open List

open Element (isTokenChar isToken isKey isToken_iff isKey_iff)

variable {c : Char} {name : String}

/-! ## Dashes -/

def dash (c : Char) : Char := if c = '_' then '-' else c

def undash (c : Char) : Char := if c = '-' then '_' else c

def dashed (name : String) : String := name.map dash

theorem intercalate_cut_single (a b : Char) (cs : List Char) :
    [b].intercalate ((Text.cut [a] 0 cs).1 :: (Text.cut [a] 0 cs).2) =
      cs.map fun c => if c = a then b else c := by
  induction cs with
  | nil => rfl
  | cons c rest ih =>
    rw [map_cons, ← ih]
    by_cases h : c = a
    · simp [Text.cut, h, intercalate]
    · simp only [Text.cut, isPrefixOf, beq_iff_eq, Ne.symm h, Bool.and_true, if_false, h]
      cases (Text.cut [a] 0 rest).2 <;> simp [intercalate]

theorem optionKey_eq_dashed (name : String) : optionKey name = dashed name := by
  have h := intercalate_cut_single '_' '-' name.toList
  rw [← String.toList_inj, dashed, String.toList_map, optionKey, Text.replace, String.toList_ofList]
  exact h

/-! ## Words -/

theorem isTokenChar_of_class (inClass : Char → Bool) (hc : inClass c = true)
    (h : ([' ', '\t', '\r', '\n', '(', ')', '\x7b', '\x7d', ','].any inClass) = false) :
    isTokenChar c = true := by
  by_contra hno
  have hmem : c ∈ [' ', '\t', '\r', '\n', '(', ')', '\x7b', '\x7d', ','] := by
    simp only [isTokenChar, Element.isValueChar, Char.isWhitespace, Bool.and_eq_true,
      Bool.not_eq_true', Bool.or_eq_false_iff, decide_eq_false_iff_not, decide_eq_true_eq] at hno
    simp only [mem_cons, not_mem_nil]
    tauto
  exact any_eq_false.mp h c hmem hc

def isWordCode (n : Nat) : Bool := 97 ≤ n && n ≤ 122 || 48 ≤ n && n ≤ 57 || n = 95

/-- Is a name a word?  The names of the catalog are many and long, and bytes are checked much faster
than characters. -/
def isWord (name : String) : Bool :=
  name ≠ "" && name.toByteArray.data.toList.all fun b => isWordCode b.toNat

private theorem mem_bytes {s : String} {b : UInt8} (hc : c ∈ s.toList)
    (hb : b ∈ String.utf8EncodeChar c) :
    b ∈ s.toByteArray.data.toList := by
  rw [← String.utf8Encode_toList, utf8Encode, data_toByteArray]
  simpa using ⟨c, hc, hb⟩

private theorem exists_large_byte (h : 127 < c.toNat) :
    ∃ b ∈ String.utf8EncodeChar c, 192 ≤ b.toNat := by
  simp only [String.utf8EncodeChar, Char.toNat_val, not_le.mpr h, if_false]
  split_ifs
  all_goals
    refine ⟨_, mem_cons_self, ?_⟩
    rw [UInt8.toNat_ofNat_of_lt' (by simp only [UInt8.size]; omega)]
    omega

private theorem isWordCode_of_bytes (h : ∀ b ∈ String.utf8EncodeChar c, isWordCode b.toNat = true) :
    isWordCode c.toNat = true := by
  rcases Nat.lt_or_ge 127 c.toNat with hlarge | hsmall
  · obtain ⟨b, hb, hcode⟩ := exists_large_byte hlarge
    have hword := h b hb
    simp only [isWordCode, Bool.or_eq_true, Bool.and_eq_true, decide_eq_true_eq] at hword
    omega
  · simp only [String.utf8EncodeChar, Char.toNat_val, hsmall,
      if_true, mem_singleton, forall_eq] at h
    rwa [UInt8.toNat_ofNat_of_lt' (by simp only [UInt8.size]; omega)] at h

theorem isWordCode_of_mem (h : isWord name = true) (hc : c ∈ name.toList) :
    isWordCode c.toNat = true := by
  simp only [isWord, Bool.and_eq_true, all_eq_true] at h
  exact isWordCode_of_bytes fun b hb => h.2 b (mem_bytes hc hb)

theorem ne_of_isWordCode {x : Char} (h : isWordCode c.toNat = true)
    (hx : isWordCode x.toNat = false) : c ≠ x := by
  rintro rfl
  simp [h] at hx

private theorem undash_dash (h : isWordCode c.toNat = true) : undash (dash c) = c := by
  have hne := ne_of_isWordCode h (x := '-') (by decide)
  unfold dash undash
  split <;> simp_all

private theorem isTokenChar_dash (h : isWordCode c.toNat = true) :
    isTokenChar (dash c) = true ∧ dash c ≠ '=' := by
  unfold dash
  split
  · decide
  · exact ⟨isTokenChar_of_class (fun c => isWordCode c.toNat) h rfl, ne_of_isWordCode h rfl⟩

theorem isKey_dashed (h : isWord name = true) : isKey (dashed name) = true := by
  have hchar : ∀ c ∈ (dashed name).toList, isTokenChar c = true ∧ c ≠ '=' := by
    intro c hc
    rw [dashed, String.toList_map, mem_map] at hc
    obtain ⟨d, hd, rfl⟩ := hc
    exact isTokenChar_dash (isWordCode_of_mem h hd)
  refine isKey_iff.mpr ⟨isToken_iff.mpr ⟨?_, fun c hc => (hchar c hc).1⟩,
    fun c hc => (hchar c hc).2⟩
  intro hempty
  simp only [isWord, Bool.and_eq_true, decide_eq_true_eq] at h
  apply h.1
  rw [← String.toList_inj] at hempty ⊢
  simpa [dashed, String.toList_map] using hempty

theorem map_undash_dashed (h : isWord name = true) : (dashed name).map undash = name := by
  rw [← String.toList_inj, String.toList_map, dashed, String.toList_map, map_map]
  calc name.toList.map (undash ∘ dash)
      = name.toList.map id := map_congr_left fun c hc => undash_dash (isWordCode_of_mem h hc)
    _ = name.toList := map_id _

/-! ## The catalog -/

/-- Is an entry of the catalog named by words, no two options by the same? -/
def isNamed (spec : PassSpec) : Bool :=
  isWord spec.name && (spec.options.all fun o => isWord o.name) &&
    (spec.options.map PassOption.name).Nodup

-- the parts are checked one after the other, which takes less memory
private theorem isNamed_catalog : PassSpec.all.all isNamed = true := by
  rw [PassSpec.all, all_append, all_append, all_append]
  simp only [Bool.and_eq_true]
  exact ⟨⟨⟨by decide +kernel, by decide +kernel⟩, by decide +kernel⟩, by decide +kernel⟩

theorem isNamed_of_find? {spec : PassSpec} (h : PassSpec.find? name = some spec) :
    isNamed spec = true :=
  all_eq_true.mp isNamed_catalog spec (mem_of_find?_eq_some h)

end Polyloom.Pipeline
