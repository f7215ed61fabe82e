import SerialNet.Param.FormBounds

/-!
# Requests and their values

`form_decoding`: when the length of a request wraps, when its fields are
decoded inside it, and which encoded values are read back.
-/

namespace SerialNet.Param

open Patch Html

/-! ## The method of the request line -/

theorem strncmpi_iff {m : Nat → UInt8} : ∀ {key : List UInt8} {a : Nat},
    (strncmpi m a key).1 = true ↔ (read m a key.length).map toLower = key
  | [], _ => ⟨fun _ => rfl, fun _ => rfl⟩
  | k :: key, a => by
    rw [strncmpi, List.length_cons, read_succ, List.map_cons, List.cons.injEq]
    split
    · rename_i h
      exact strncmpi_iff.trans ⟨fun hk => ⟨h, hk⟩, fun hk => hk.2⟩
    · rename_i h
      exact ⟨fun hf => absurd hf Bool.false_ne_true, fun hk => absurd hk.1 h⟩

section
variable {old : Nat → UInt8} {p : Nat} {r : List UInt8}

theorem received_read {k : Nat} (hk : k ≤ r.length) : read (received old p r) p k = r.take k := by
  unfold received
  refine List.ext_getElem (by rw [length_read, List.length_take, Nat.min_eq_left hk]) fun i hi _ => ?_
  rw [length_read] at hi
  rw [getElem_read, List.getElem_take]
  split
  · rw [patch_inside (by rw [List.length_append]; omega), List.getElem_append_left]
  · rw [patch_inside]

/-- A method is found in the request itself, not in what lies behind it. -/
theorem received_method {key : List UInt8} (h0 : 0 ∉ key) (hlen : key.length < 3120) :
    (strncmpi (received old p r) p key).1 = true ↔ (r.take key.length).map toLower = key := by
  rw [strncmpi_iff]
  by_cases hk : key.length ≤ r.length
  · rw [received_read hk]
  · have hr : received old p r = patch old p (r ++ [0]) := by rw [received, if_pos (by omega)]
    constructor
    · intro h
      have hi : r.length < key.length := by omega
      have hz : toLower (received old p r (p + r.length)) = key[r.length] := by
        have hget := List.getElem_of_eq h (i := r.length) (by simpa using hi)
        rwa [List.getElem_map, getElem_read] at hget
      have hzero : received old p r (p + r.length) = 0 := by
        rw [hr, patch_inside (by simp), List.getElem_concat_length rfl]
      rw [hzero] at hz
      have hz : 0 = key[r.length] := hz
      exact absurd (hz ▸ List.getElem_mem hi) h0
    · intro h
      have := congrArg List.length h
      rw [List.length_map, List.length_take] at this
      omega

theorem sub_le_iff {x : UInt32} (k : UInt32) : x - k ≤ x ↔ k ≤ x := by
  rw [UInt32.le_iff_toNat_le, UInt32.le_iff_toNat_le, UInt32.toNat_sub]
  have := x.toNat_lt
  have := k.toNat_lt
  omega

theorem toNat_ofNat_lt {n k : Nat} (h : n ≤ 3120) (hk : k ≤ 3120) : UInt32.ofNat k ≤ UInt32.ofNat n ↔ k ≤ n := by
  rw [UInt32.le_iff_toNat_le, UInt32.toNat_ofNat_of_lt' (show n < 4294967296 by omega),
    UInt32.toNat_ofNat_of_lt' (show k < 4294967296 by omega)]

theorem take_key {key : List UInt8} (h : (r.take key.length).map toLower = key) : key.length ≤ r.length := by
  have := congrArg List.length h
  rw [List.length_map, List.length_take] at this
  omega

theorem map_take_key {key : List UInt8} (h : r.map toLower = key) : (r.take key.length).map toLower = key := by
  rw [List.map_take, h, List.take_length]

theorem skip_wraps {key : List UInt8} (h : (r.take key.length).map toLower = key) (hmax : r.length ≤ 3120) :
    UInt32.ofNat r.length - UInt32.ofNat (key.length + 1) ≤ UInt32.ofNat r.length ↔ r.map toLower ≠ key := by
  have hle := take_key h
  by_cases hlen : key.length = r.length
  · have hall : r.map toLower = key := by
      rw [hlen, List.take_length] at h
      exact h
    rw [sub_le_iff, UInt32.le_iff_toNat_le, UInt32.toNat_ofNat_of_lt' (show r.length < 4294967296 by omega),
      UInt32.toNat_ofNat_of_lt' (show key.length + 1 < 4294967296 by omega)]
    exact ⟨fun hlt => by omega, fun hne => absurd hall hne⟩
  · rw [sub_le_iff, toNat_ofNat_lt hmax (by omega)]
    refine ⟨fun _ he => hlen ?_, fun _ => by omega⟩
    rw [← he, List.length_map]

/-- The length wraps when nothing follows the method. -/
theorem skipMethod_iff (hmax : r.length ≤ 3120) :
    skipMethod (received old p r) p (UInt32.ofNat r.length) ≤ UInt32.ofNat r.length ↔
      r.map toLower ≠ bytes "get" ∧ r.map toLower ≠ bytes "post" := by
  have hget := @received_method old p r (bytes "get") (by decide) (by decide)
  have hpost := @received_method old p r (bytes "post") (by decide) (by decide)
  have h4 : UInt32.ofNat ((bytes "get").length + 1) = 4 := by decide
  have h5 : UInt32.ofNat ((bytes "post").length + 1) = 5 := by decide
  have hdiff : (bytes "post").take (bytes "get").length ≠ bytes "get" := by decide
  rw [skipMethod, ← h4, ← h5]
  generalize bytes "get" = get at *
  generalize bytes "post" = post at *
  by_cases hg : (r.take get.length).map toLower = get
  · rw [if_pos (hget.mpr hg)]
    refine (skip_wraps hg hmax).trans ⟨fun h => ⟨h, fun hp => hdiff ?_⟩, fun h => h.1⟩
    rwa [List.map_take, hp] at hg
  · rw [if_neg fun h => hg (hget.mp h)]
    have hne : r.map toLower ≠ get := fun h => hg (map_take_key h)
    by_cases hp : (r.take post.length).map toLower = post
    · rw [if_pos (hpost.mpr hp)]
      exact (skip_wraps hp hmax).trans ⟨fun h => ⟨hne, h⟩, fun h => h.2⟩
    · rw [if_neg fun h => hp (hpost.mp h)]
      exact ⟨fun _ => ⟨hne, fun h => hp (map_take_key h)⟩, fun _ => UInt32.le_refl _⟩

end

/-! ## Encoded values -/

theorem encoded_byte (c : UInt8) :
    (isPlain c = true → isFieldEnd c = false ∧ (c == 37) = false ∧ (c == 43) = false) ∧
      atouHex (hexUpper (c / 16)) (hexUpper (c % 16)) = c := by
  revert c
  apply forall_byte
  decide +kernel

def Delimits (rest : List UInt8) : Prop := ∀ c ∈ rest.head?, isFieldEnd c = true

theorem closedValue_encoded {rest : List UInt8} (hr : Delimits rest) : ∀ s : List UInt8,
    ∃ c, closedValue true (urlEncode s ++ rest) = some (s, c)
  | [] => by
    cases rest with
    | nil => exact ⟨0, rfl⟩
    | cons c rest => exact ⟨1, closedValue_end (hr c rfl)⟩
  | b :: s => by
    obtain ⟨c, hc⟩ := closedValue_encoded hr s
    rw [urlEncode, List.flatMap_cons, List.append_assoc, ← urlEncode, encodeByte]
    split
    · rename_i hp
      obtain ⟨hend, h37, h43⟩ := (encoded_byte b).1 hp
      refine ⟨c + 1, ?_⟩
      rw [List.singleton_append, closedValue_char hend h37, hc, h43]
      rfl
    · split
      · rename_i h32
        refine ⟨c + 1, ?_⟩
        rw [List.singleton_append, closedValue_char (by decide) (by decide), hc, h32]
        rfl
      · refine ⟨c + 3, ?_⟩
        show closedValue true (37 :: hexUpper (b / 16) :: hexUpper (b % 16) :: (urlEncode s ++ rest)) = _
        rw [closedValue_escape, hc, (encoded_byte b).2]
        rfl

def Trimmed (s : List UInt8) : Prop := (∀ c ∈ s.head?, isSpace c = false) ∧ EndsBare s

theorem dropWhile_head {s : List UInt8} (h : ∀ c ∈ s.head?, isSpace c = false) : s.dropWhile isSpace = s := by
  cases s with
  | nil => rfl
  | cons c s => rw [List.dropWhile_cons, h c rfl]; rfl

theorem urlDecodeAt_holds {m : Nat → UInt8} {p len : Nat} {s rest : List UInt8} (h : Trimmed s) (hr : Delimits rest)
    (hm : read m p len = urlEncode s ++ rest) (h0 : 0 ∉ s) : CStr.Holds (urlDecodeAt m p len).mem p (strrmvspace s) := by
  obtain ⟨c, hc⟩ := closedValue_encoded hr s
  obtain ⟨hmem, hdst, -⟩ := (loopSpec m p len).text s c (by rw [← hc, ← hm]; rfl)
  have hcut : cstring s = s := List.takeWhile_eq_self_iff.mpr fun x hx => bne_iff_ne.mpr fun e => h0 (e ▸ hx)
  have hblank : blank s ≠ true := by
    intro hb
    obtain ⟨hne, hd⟩ := blank_iff.mp hb
    exact hne ((dropWhile_head h.1).symm.trans hd)
  have hstrip := strrmvspaceAt_spec ((read_decoded m p s).trans hcut) fun hb => absurd hb hblank
  have hholds := hstrip.holds
  unfold urlDecodeAt
  simp only [hmem, hdst]
  rw [← patch_append, Nat.add_sub_cancel_left]
  exact hholds

/-- An encoded value is read back unless it has a zero, or `strlen` stops behind white space in it. -/
theorem urlDecodeAt_encoded {m : Nat → UInt8} {p len : Nat} {s rest : List UInt8} (h : Trimmed s) (hr : Delimits rest)
    (hm : read m p len = urlEncode s ++ rest) :
    CStr.Holds (urlDecodeAt m p len).mem p s ↔ 0 ∉ s ∧ EndsBare (counted s) := by
  have hkept := strrmvspace_eq_iff (dropWhile_head h.1)
  constructor
  · intro hs
    have hleft := urlDecodeAt_holds h hr hm hs.nonzero
    exact ⟨hs.nonzero, hkept.mp (hleft.unique hs)⟩
  · rintro ⟨h0, hlast⟩
    have hleft := urlDecodeAt_holds h hr hm h0
    rwa [hkept.mpr hlast] at hleft

/-! ## All requests -/

theorem wifiKeys_ok : ∀ key ∈ wifiKeys, KeyOk key := by decide

theorem uartKeys_ok : ∀ key ∈ uartKeys, KeyOk key := by decide

theorem netKeys_ok : ∀ key ∈ netKeys, KeyOk key := by decide

/-- **Form decoding.** At every address but 0, and for every content and
length: `url_decode` keeps to a value that is closed there and not white space
alone; the scans keep to a text whose comparisons and values end there; the
request line wraps only a method with nothing behind; and an encoded value is
read back unless a zero is in it or its 4095th character is white space. -/
theorem form_decoding (m : Nat → UInt8) {p : Nat} (hp : 0 < p) (n : UInt32) :
    (DecodesInside m p n.toNat ↔ valueInside (read m p n.toNat) = true) ∧
      (∀ keys ∈ [wifiKeys, uartKeys, netKeys], ScanEnds keys m p n ↔ scanCloses keys 0 (read m p n.toNat) = true) ∧
      (∀ r : List UInt8, r.length ≤ 3120 →
        (skipMethod (received m p r) p (UInt32.ofNat r.length) ≤ UInt32.ofNat r.length ↔
          r.map toLower ≠ bytes "get" ∧ r.map toLower ≠ bytes "post")) ∧
      ∀ s rest, Trimmed s → Delimits rest → read m p n.toNat = urlEncode s ++ rest →
        (CStr.Holds (urlDecodeAt m p n.toNat).mem p s ↔ 0 ∉ s ∧ EndsBare (counted s)) := by
  refine ⟨decodesInside_iff n.toNat hp, fun keys hk => ?_, fun r hr => skipMethod_iff hr,
    fun s rest hs hr hm => urlDecodeAt_encoded hs hr hm⟩
  simp only [List.mem_cons, List.not_mem_nil, or_false] at hk
  rcases hk with rfl | rfl | rfl
  · exact scanEnds_iff wifiKeys_ok m p n
  · exact scanEnds_iff uartKeys_ok m p n
  · exact scanEnds_iff netKeys_ok m p n

def textAt (s : List UInt8) : Nat → UInt8 := patch (fun _ => 0) 1 s

theorem form_decoding_closed : DecodesInside (textAt [97, 37, 52, 49, 38]) 1 5 :=
  (form_decoding (textAt [97, 37, 52, 49, 38]) (by decide) 5).1.mpr (by decide)

/-- The escape at the end of the request takes `rx_len` below zero. -/
theorem cut_escape_wraps : ¬ScanEnds uartKeys (textAt (bytes "baudrate=%4")) 1 11 := by
  rw [scanEnds_iff uartKeys_ok]
  decide

end SerialNet.Param
