import SerialNet.Web.Update

/-!
# What http_update reads and writes

One call of `http_update` by what the segment shows: it stays within the segment
and the flash regions exactly when the searches end in the segment and what they
find fits.
-/

namespace SerialNet.Upload

open Patch Param Run

/-- The range lies in the sector of the boot parameters or in the region of the backup
image, which begins where that sector ends. -/
def Inside (pos n : Nat) : Prop := bootParamOffset ≤ pos ∧ pos + n ≤ nvmFwBakOffset + fwImgSizeMax

/-- A call that keeps to the segment and to the flash it may write. -/
structure Clear (rx : List UInt8) (flash : Nat → UInt8) (t : Turn) : Prop where
  reads : ∀ x ∈ t.touched, recData ≤ x ∧ x < recData + rx.length
  lengths : ∀ c ∈ t.calls, 0 ≤ c.len
  confined : ∀ c ∈ t.calls, c.Confined
  flash : ∃ flash', t.flash = some flash' ∧ ∀ x, ¬Inside x 1 → flash' x = flash x

section
variable {m : Nat → UInt8} {key : List UInt8}

theorem seek_succ {a n : Nat} : seek m key a (n + 1) =
    if (strncmpi m a key).1 then (some a, (strncmpi m a key).2)
    else ((seek m key (a + 1) n).1, (strncmpi m a key).2 ++ (seek m key (a + 1) n).2) := rfl

/-- The loops find what the list shows, unless a comparison leaves the text. -/
theorem seek_spec : ∀ {n a : Nat},
    match search key (read m a n) with
    | none => ∃ x ∈ (seek m key a n).2, a + n ≤ x
    | some found => (seek m key a n).1 = found.map (a + ·) ∧ (∀ x ∈ (seek m key a n).2, a ≤ x ∧ x < a + n) ∧
        ∀ i, found = some i → i + key.length ≤ n
  | 0, a => ⟨rfl, fun _ hx => absurd hx List.not_mem_nil, fun _ h => by cases h⟩
  | n + 1, a => by
    have hcmp := @strncmpi_spec m key a (n + 1)
    have ih := @seek_spec n (a + 1)
    rw [read_succ] at hcmp ⊢
    rw [search, seek_succ]
    cases hc : compares (m a :: read m (a + 1) n) key with
    | none =>
      rw [hc] at hcmp
      obtain ⟨x, hx, hle⟩ := hcmp
      refine ⟨x, ?_, hle⟩
      split
      · exact hx
      · exact List.mem_append_left _ hx
    | some r =>
      rw [hc] at hcmp
      obtain ⟨hr, hreads, hlen⟩ := hcmp
      cases r with
      | true =>
        rw [hr, if_pos rfl]
        refine ⟨rfl, hreads, fun i hi => ?_⟩
        cases hi
        rw [Nat.zero_add]
        exact hlen rfl
      | false =>
        rw [hr, if_neg Bool.false_ne_true]
        cases hs : search key (read m (a + 1) n) with
        | none =>
          rw [hs] at ih
          obtain ⟨x, hx, hle⟩ := ih
          exact ⟨x, List.mem_append_right _ hx, by omega⟩
        | some found =>
          rw [hs] at ih
          obtain ⟨hfound, hin, hend⟩ := ih
          refine ⟨?_, fun x hx => ?_, fun i hi => ?_⟩
          · rw [hfound]
            cases found with
            | none => rfl
            | some i => exact congrArg some (show a + 1 + i = a + (i + 1) by omega)
          · rcases List.mem_append.mp hx with hx | hx
            · exact hreads x hx
            · have := hin x hx
              omega
          · cases found with
            | none => cases hi
            | some j =>
              cases hi
              have hle := hend j rfl
              show j + 1 + key.length ≤ n + 1
              omega

end

/-! ## WriteFlash -/

theorem inside_iff {pos n : Nat} : Inside pos n ↔ 0x33000 ≤ pos ∧ pos + n ≤ 0x64000 := Iff.rfl

theorem word_nat {n : Nat} (h : n < 2 ^ 32) : (word n).toNat = n := by
  have hmod : ((n : Int) % 2 ^ 32).toNat = n := by omega
  rw [word, hmod, UInt32.toNat_ofNat']
  exact Nat.mod_eq_of_lt h

section
variable {t : Turn} {f : Nat → UInt8} {data : List UInt8} {pos : UInt32} {m : Nat → UInt8} {rx n : Nat}

theorem store_flash {what : Stored} (hf : t.flash = some f) (hin : Inside pos.toNat data.length) :
    (t.store what data data.length pos).flash = some (patch f pos.toNat data) := by
  rw [inside_iff] at hin
  have hlen : data.length < 2 ^ 32 := by omega
  obtain ⟨d, hwrite, hmem, -⟩ := @Flash.writeFlash_patch ⟨f, []⟩ data pos.toNat
    (fun e he => absurd he List.not_mem_nil) (by unfold Flash.nvmMaxSize; omega)
  rw [Turn.store, hf, word_nat hlen]
  simp [hwrite, hmem]

theorem patch_inside_only (pos : UInt32) (hin : Inside pos.toNat data.length) {x : Nat} (hx : ¬Inside x 1) :
    patch f pos.toNat data x = f x := by
  apply patch_outside
  rw [inside_iff] at hin hx
  omega

theorem burn_flash (m : Nat → UInt8) (rx : Nat) (hf : t.flash = some f) (hn : n < 2 ^ 32) (hin : Inside pos.toNat n) :
    (t.burn m rx n pos).flash = some (patch f pos.toNat (read m rx n)) := by
  have hstore := @store_flash t f (read m rx n) pos .image hf (by rwa [length_read])
  rw [length_read] at hstore
  rw [Turn.burn, word_nat hn]
  exact hstore

theorem store_touched {what : Stored} {len : Int} : (t.store what data len pos).touched = t.touched := rfl

theorem burn_touched (hn : n < 2 ^ 32) : (t.burn m rx n pos).touched = t.touched ++ List.range' rx n := by
  rw [Turn.burn, word_nat hn]
  rfl

end

/-! ## One call -/

section
variable {s : Receiver} {rx : List UInt8}

def Receiver.ram (s : Receiver) (rx : List UInt8) : Nat → UInt8 := received s.mem recData rx

/-- The call before its first `WriteFlash`. -/
def Receiver.opening (s : Receiver) (ts : List Nat) : Turn := ⟨1, s.fmwStartSign, s.firmwareSize, some s.flash, [], ts⟩

def Within (rx : List UInt8) (ts : List Nat) : Prop := ∀ x ∈ ts, recData ≤ x ∧ x < recData + rx.length

theorem Within.append {ts ts' : List Nat} (h : Within rx ts) (h' : Within rx ts') : Within rx (ts ++ ts') := by
  intro x hx
  rcases List.mem_append.mp hx with hx | hx
  · exact h x hx
  · exact h' x hx

theorem within_range {a n : Nat} (ha : recData ≤ a) (hn : a + n ≤ recData + rx.length) : Within rx (List.range' a n) := by
  intro x hx
  rw [List.mem_range'_1] at hx
  exact ⟨Nat.le_trans ha hx.1, Nat.lt_of_lt_of_le hx.2 hn⟩

theorem read_ram : read (s.ram rx) recData rx.length = rx := by
  rw [Receiver.ram, received_read (Nat.le_refl _), List.take_length]

theorem read_ram_drop {i : Nat} : read (s.ram rx) (recData + i) (rx.length - i) = rx.drop i := by
  rw [← drop_read, read_ram]

theorem read_ram_take {i : Nat} (hi : i ≤ rx.length) : read (s.ram rx) recData i = rx.take i := by
  rw [Receiver.ram, received_read hi]

theorem head_spec :
    let r := if s.updFlag ≤ 2 then seek (s.ram rx) (folded marker) recData rx.length else (none, [])
    match (if s.updFlag ≤ 2 then search (folded marker) rx else some none) with
    | none => ∃ x ∈ r.2, recData + rx.length ≤ x
    | some found => r.1 = found.map (recData + ·) ∧ Within rx r.2 ∧ ∀ i, found = some i → i ≤ rx.length := by
  have hseek := @seek_spec (s.ram rx) (folded marker) rx.length recData
  rw [read_ram] at hseek
  by_cases hu : s.updFlag ≤ 2
  · simp only [if_pos hu]
    cases hs : search (folded marker) rx with
    | none =>
      rw [hs] at hseek
      exact hseek
    | some found =>
      rw [hs] at hseek
      exact ⟨hseek.1, hseek.2.1, fun i hi => Nat.le_trans (Nat.le_add_right _ _) (hseek.2.2 i hi)⟩
  · simp only [if_neg hu]
    exact ⟨rfl, fun x hx => absurd hx List.not_mem_nil, fun i hi => by cases hi⟩

theorem last_spec (h : 100 ≤ rx.length) :
    match search (folded trailer) (rx.drop (rx.length - 100)) with
    | none => ∃ x ∈ (seek (s.ram rx) (folded trailer) (recData + rx.length - 100) 100).2, recData + rx.length ≤ x
    | some found => (seek (s.ram rx) (folded trailer) (recData + rx.length - 100) 100).1 =
          found.map (recData + rx.length - 100 + ·) ∧
        Within rx (seek (s.ram rx) (folded trailer) (recData + rx.length - 100) 100).2 ∧
        ∀ i, found = some i → i + 8 ≤ 100 := by
  have hseek := @seek_spec (s.ram rx) (folded trailer) 100 (recData + rx.length - 100)
  have hwindow : read (s.ram rx) (recData + rx.length - 100) 100 = rx.drop (rx.length - 100) := by
    rw [← @read_ram_drop s]
    congr 1
    · omega
    · omega
  rw [hwindow] at hseek
  cases hs : search (folded trailer) (rx.drop (rx.length - 100)) with
  | none =>
    rw [hs] at hseek
    obtain ⟨x, hx, hle⟩ := hseek
    exact ⟨x, hx, by omega⟩
  | some found =>
    rw [hs] at hseek
    refine ⟨hseek.1, fun x hx => ?_, hseek.2.2⟩
    have := hseek.2.1 x hx
    unfold recData at this ⊢
    omega

/-- A call by what the segment shows. -/
inductive Shown (s : Receiver) (rx : List UInt8) : Option Sight → Turn → Prop
  | cut (t : Turn) : (∃ x ∈ t.touched, x < recData ∨ recData + rx.length ≤ x) → Shown s rx none t
  | header (i : Nat) (ts : List Nat) : Within rx ts → i ≤ rx.length →
      Shown s rx (some (.header i))
        { (s.opening ts).burn (s.ram rx) (recData + i + 256) (((rx.length - i : Nat) : Int) - 256) 0x34000 with
          fmwStartSign := true, firmwareSize := word (((rx.length - i : Nat) : Int) - 256) }
  | trailer (i : Nat) (ts : List Nat) : Within rx ts → i + 8 ≤ rx.length →
      Shown s rx (some (.trailer i))
        { ((s.opening ts).burn (s.ram rx) recData i (0x34000 + s.firmwareSize)).store .bootParam (bootParam s.flash) 16 0x33000 with
          ret := 0, fmwStartSign := false, firmwareSize := s.firmwareSize + word i + 256 + 9 }
  | body (ts : List Nat) : Within rx ts → s.fmwStartSign = true →
      Shown s rx (some .body)
        { (s.opening ts).burn (s.ram rx) recData rx.length (0x34000 + s.firmwareSize) with
          firmwareSize := s.firmwareSize + word rx.length }
  | idle (ts : List Nat) : Within rx ts → s.fmwStartSign = false → Shown s rx (some .idle) (s.opening ts)

theorem seek_first {m : Nat → UInt8} {k : UInt8} {key : List UInt8} {a n : Nat} : a ∈ (seek m (k :: key) a (n + 1)).2 := by
  have hfirst : a ∈ (strncmpi m a (k :: key)).2 := by
    rw [strncmpi]
    split
    · exact List.mem_cons_self
    · exact List.mem_cons_self
  rw [seek_succ]
  split
  · exact hfirst
  · exact List.mem_append_left _ hfirst

theorem turn_shown : Shown s rx (s.sight rx) (s.turn rx) := by
  have hhead := @head_spec s rx
  have hlast := @last_spec s rx
  have hfirst : recData + rx.length - 100 ∈ (seek (s.ram rx) (folded trailer) (recData + rx.length - 100) 100).2 := seek_first
  change Shown s rx _ (httpUpdate (s.ram rx) _ _ _ _ _)
  unfold Receiver.sight sight httpUpdate
  generalize (if s.updFlag ≤ 2 then seek (s.ram rx) (folded marker) recData rx.length else (none, [])) = r at hhead ⊢
  generalize (if s.updFlag ≤ 2 then search (folded marker) rx else some none) = found at hhead ⊢
  obtain ⟨head, ts⟩ := r
  dsimp only at hhead ⊢
  generalize seek (s.ram rx) (folded trailer) (recData + rx.length - 100) 100 = r' at hlast hfirst ⊢
  obtain ⟨last, ts'⟩ := r'
  cases found with
  | none =>
    obtain ⟨x, hx, hle⟩ := hhead
    refine .cut _ ⟨x, ?_, .inr hle⟩
    cases head with
    | some a => exact List.mem_append_left _ hx
    | none =>
      dsimp only
      split
      · split
        · exact List.mem_append_left _ (List.mem_append_left _ hx)
        · exact List.mem_append_left _ (List.mem_append_left _ hx)
      · exact hx
  | some found =>
    obtain ⟨rfl, hreads, hle⟩ := hhead
    cases found with
    | some i =>
      have hrest : recData + rx.length - (recData + i) = rx.length - i := by omega
      dsimp only [Option.map_some, Option.bind_some]
      rw [hrest]
      exact .header i ts hreads (hle i rfl)
    | none =>
      dsimp only [Option.map_none, Option.bind_some]
      by_cases hsign : s.fmwStartSign = true
      · rw [if_pos hsign, if_pos hsign]
        by_cases hn : rx.length < 100
        · rw [if_pos hn]
          refine .cut _ ⟨_, ?_, .inl (show recData + rx.length - 100 < recData by unfold recData; omega)⟩
          cases last with
          | some a => exact List.mem_append_left _ (List.mem_append_right _ hfirst)
          | none => exact List.mem_append_left _ (List.mem_append_right _ hfirst)
        · rw [if_neg hn]
          have hlast := hlast (Nat.le_of_not_lt hn)
          generalize search (folded trailer) (rx.drop (rx.length - 100)) = found at hlast ⊢
          cases found with
          | none =>
            obtain ⟨x, hx, hle⟩ := hlast
            refine .cut _ ⟨x, ?_, .inr hle⟩
            cases last with
            | some a => exact List.mem_append_left _ (List.mem_append_right _ hx)
            | none => exact List.mem_append_left _ (List.mem_append_right _ hx)
          | some found =>
            obtain ⟨rfl, hreads', hle⟩ := hlast
            cases found with
            | some i =>
              have hle := hle i rfl
              have hlen : (rx.length : Int) - 100 + ((recData + rx.length - 100 + i - (recData + rx.length - 100) : Nat) : Int) =
                  ((rx.length - 100 + i : Nat) : Int) := by omega
              dsimp only [Option.map_some]
              rw [hlen]
              exact .trailer _ _ (hreads.append hreads') (by omega)
            | none => exact .body _ (hreads.append hreads') hsign
      · rw [if_neg hsign, if_neg hsign]
        exact .idle ts hreads (Bool.eq_false_iff.mpr hsign)

/-- The flash behind a segment. -/
def Sight.image (s : Receiver) (rx : List UInt8) : Sight → Nat → UInt8
  | .header i => patch s.flash 0x34000 (rx.drop (i + 256))
  | .trailer i => patch (patch s.flash (0x34000 + s.firmwareSize).toNat (rx.take i)) 0x33000 (bootParam s.flash)
  | .body => patch s.flash (0x34000 + s.firmwareSize).toNat rx
  | .idle => s.flash

theorem length_bootParam (flash : Nat → UInt8) : (bootParam flash).length = 16 := by
  simp [bootParam]

/-- The image data keeps to the backup region as long as its sizes sum up to no more than that of the region. -/
theorem confined_image {size : UInt32} {n : Nat} :
    FlashCall.Confined ⟨.image, n, 0x34000 + size⟩ ↔ size.toNat + n ≤ fwImgSizeMax := by
  change nvmFwBakOffset ≤ (0x34000 + size).toNat ∧ (0x34000 + size).toNat + n ≤ nvmFwBakOffset + fwImgSizeMax ↔ _
  rw [UInt32.toNat_add]
  have hsize := size.toNat_lt
  change 0x34000 ≤ (0x34000 + size.toNat) % 2 ^ 32 ∧ (0x34000 + size.toNat) % 2 ^ 32 + n ≤ 0x64000 ↔ size.toNat + n ≤ 0x30000
  omega

theorem inside_image {size : UInt32} {n : Nat} (h : size.toNat + n ≤ fwImgSizeMax) : Inside (0x34000 + size).toNat n := by
  have hc := confined_image.mpr h
  exact ⟨Nat.le_trans (by decide) hc.1, hc.2⟩

theorem inside_boot : Inside (0x33000 : UInt32).toNat 16 := inside_iff.mpr (by decide)

theorem confined_header {i : Nat} (hfit : rx.length ≤ recvBufferSize) :
    FlashCall.Confined ⟨.image, (rx.length - i : Nat), 0x34000⟩ := by
  refine ⟨show 0x34000 ≤ (0x34000 : UInt32).toNat by decide, ?_⟩
  change 0x34000 + (rx.length - i) ≤ 0x64000
  unfold recvBufferSize at hfit
  omega

theorem inside_header {i : Nat} (hfit : rx.length ≤ recvBufferSize) : Inside (0x34000 : UInt32).toNat (rx.length - i) :=
  ⟨by decide, (@confined_header rx i hfit).2⟩

theorem shown_flash {v : Sight} {t : Turn} (hfit : rx.length ≤ recvBufferSize) (h : Shown s rx (some v) t)
    (hv : v.Fits s.firmwareSize rx) : t.flash = some (v.image s rx) := by
  have hword : rx.length < 2 ^ 32 := Nat.lt_of_le_of_lt hfit (by decide)
  cases h with
  | header i ts _ hle =>
    have hlen : ((rx.length - i : Nat) : Int) - 256 = ((rx.length - (i + 256) : Nat) : Int) := by
      have : i + 256 ≤ rx.length := hv
      omega
    dsimp only
    rw [hlen, burn_flash _ _ rfl (by omega) (inside_header hfit), Nat.add_assoc, read_ram_drop]
    rfl
  | trailer i ts _ hle =>
    have hburn := burn_flash (s.ram rx) recData (show (s.opening ts).flash = some s.flash from rfl)
      (show i < 2 ^ 32 by omega) (inside_image hv)
    have hstore := @store_flash _ _ (bootParam s.flash) 0x33000 .bootParam hburn (by rw [length_bootParam]; exact inside_boot)
    rw [length_bootParam] at hstore
    rw [read_ram_take (by omega)] at hstore
    exact hstore
  | body ts _ _ =>
    have hburn := burn_flash (s.ram rx) recData (show (s.opening ts).flash = some s.flash from rfl) hword (inside_image hv)
    rw [read_ram] at hburn
    exact hburn
  | idle => rfl

theorem image_outside {v : Sight} (hfit : rx.length ≤ recvBufferSize) (hle : ∀ i, v = .trailer i → i ≤ rx.length)
    (hv : v.Fits s.firmwareSize rx) {x : Nat} (hx : ¬Inside x 1) : v.image s rx x = s.flash x := by
  cases v with
  | header i =>
    exact patch_inside_only 0x34000 (by rw [List.length_drop]; exact inside_header hfit) hx
  | trailer i =>
    have hboot : Inside (0x33000 : UInt32).toNat (bootParam s.flash).length := by
      rw [length_bootParam]
      exact inside_boot
    have htake : Inside (0x34000 + s.firmwareSize).toNat (rx.take i).length := by
      rw [List.length_take, Nat.min_eq_left (hle i rfl)]
      exact inside_image hv
    exact (patch_inside_only 0x33000 hboot hx).trans (patch_inside_only _ htake hx)
  | body => exact patch_inside_only _ (inside_image hv) hx
  | idle => rfl

/-- A call keeps to its segment and its flash exactly when its searches end in the
segment and what they find fits. -/
theorem clear_iff (hfit : rx.length ≤ recvBufferSize) :
    Clear rx s.flash (s.turn rx) ↔ ∃ v, s.sight rx = some v ∧ v.Fits s.firmwareSize rx := by
  have hword : rx.length < 2 ^ 32 := Nat.lt_of_le_of_lt hfit (by decide)
  have h := @turn_shown s rx
  generalize s.sight rx = shown at h ⊢
  generalize s.turn rx = t at h ⊢
  constructor
  · intro hc
    cases h with
    | cut t hout =>
      obtain ⟨x, hx, hout⟩ := hout
      have := hc.reads x hx
      omega
    | header i ts _ hle =>
      have hlen := hc.lengths ⟨_, _, _⟩ (List.mem_singleton_self _)
      exact ⟨_, rfl, show i + 256 ≤ rx.length by dsimp only at hlen; omega⟩
    | trailer i ts _ hle => exact ⟨_, rfl, confined_image.mp (hc.confined ⟨_, _, _⟩ List.mem_cons_self)⟩
    | body ts _ _ => exact ⟨_, rfl, confined_image.mp (hc.confined ⟨_, _, _⟩ (List.mem_singleton_self _))⟩
    | idle ts _ _ => exact ⟨_, rfl, trivial⟩
  · rintro ⟨v, rfl, hv⟩
    have hflash := shown_flash hfit h hv
    cases h with
    | header i ts hreads hle =>
      have hlen : ((rx.length - i : Nat) : Int) - 256 = ((rx.length - (i + 256) : Nat) : Int) := by
        have : i + 256 ≤ rx.length := hv
        omega
      rw [hlen] at hflash ⊢
      refine ⟨fun x hx => ?_, fun c hc => ?_, fun c hc => ?_, _, hflash,
        fun x hx => image_outside hfit (fun i h => by cases h) hv hx⟩
      · have hi : i + 256 ≤ rx.length := hv
        dsimp only at hx
        rw [burn_touched (by omega)] at hx
        exact hreads.append (within_range (by omega) (by omega)) x hx
      · rw [List.mem_singleton.mp hc]
        exact Int.natCast_nonneg _
      · rw [List.mem_singleton.mp hc]
        exact confined_header hfit
    | trailer i ts hreads hle =>
      refine ⟨fun x hx => ?_, fun c hc => ?_, fun c hc => ?_, _, hflash,
        fun x hx => image_outside hfit (fun j h => by cases h; omega) hv hx⟩
      · dsimp only at hx
        rw [store_touched, burn_touched (by omega)] at hx
        exact hreads.append (within_range (Nat.le_refl _) (by omega)) x hx
      · rcases List.mem_pair.mp hc with rfl | rfl
        · exact Int.natCast_nonneg i
        · decide
      · rcases List.mem_pair.mp hc with rfl | rfl
        · exact confined_image.mpr hv
        · exact ⟨by decide, by decide⟩
    | body ts hreads _ =>
      refine ⟨fun x hx => ?_, fun c hc => ?_, fun c hc => ?_, _, hflash,
        fun x hx => image_outside hfit (fun i h => by cases h) hv hx⟩
      · dsimp only at hx
        rw [burn_touched hword] at hx
        exact hreads.append (within_range (Nat.le_refl _) (Nat.le_refl _)) x hx
      · rw [List.mem_singleton.mp hc]
        exact Int.natCast_nonneg _
      · rw [List.mem_singleton.mp hc]
        exact confined_image.mpr hv
    | idle ts hreads _ =>
      exact ⟨hreads, fun c hc => absurd hc List.not_mem_nil, fun c hc => absurd hc List.not_mem_nil, _, hflash,
        fun _ _ => rfl⟩

end

end SerialNet.Upload
