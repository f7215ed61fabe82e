import SerialNet.Web.UpdateSafe

/-!
# An upload from its first segment to its last

The receiver along the segments of a stream: which runs keep to their segments and
their flash, and under which condition on the segments the image that the stream
carries is stored and the boot parameters rewritten once.
-/

namespace SerialNet.Upload

open Patch Param Run

/-- A stream that carries an image. -/
structure Image where
  front : List UInt8
  handshake : List UInt8
  payload : List UInt8
  rest : List UInt8
  handshake_length : handshake.length = handshakingOffset
  handshake_marker : marker <+: handshake
  front_marker : ¬marker <:+: front
  payload_marker : ¬marker <:+: payload
  payload_trailer : ¬trailer <:+: payload

namespace Image
variable (u : Image)

def stream : List UInt8 := u.front ++ (u.handshake ++ (u.payload ++ (trailer ++ u.rest)))

def markerAt : Nat := u.front.length

def payloadAt : Nat := u.markerAt + handshakingOffset

def trailerAt : Nat := u.payloadAt + u.payload.length

end Image

def Receiver.bootWrites (s : Receiver) : Nat := s.calls.countP (·.what = .bootParam)

def carried (segs : List Segment) : List UInt8 := (segs.map Segment.data).flatten

/-! ## What is to hold -/

/-- What reaches `http_update` keeps to the segment and to the flash it may write. -/
def Safe (s : Receiver) (seg : Segment) : Prop := route s seg.data = .update → Clear seg.data s.flash (s.turn seg.data)

/-- The image is in its place behind the last segment; the boot parameters are rewritten
once, and not before the trailer was received. -/
structure Installed (serve : List UInt8 → Board → Board) (s : Receiver) (segs : List Segment) (u : Image) : Prop where
  image : Holds (run (httpEngine serve) s segs).flash nvmFwBakOffset u.payload
  boot : ∀ front, front <+: segs → (run (httpEngine serve) s front).bootWrites =
    if u.trailerAt + trailer.length ≤ (carried front).length then 1 else 0

/-! ## The conditions on a segment -/

/-- The searches end in the segment, the handshake is whole, and what is stored keeps to its region. -/
def Sound (s : Receiver) (seg : Segment) : Prop :=
  route s seg.data = .update → ∃ v, s.sight seg.data = some v ∧ v.Fits s.firmwareSize seg.data

/-- What is taken for the trailer is the trailer. -/
def Exact (s : Receiver) (seg : Segment) : Prop :=
  route s seg.data = .update → ∀ i, s.sight seg.data = some (.trailer i) → trailer <+: seg.data.drop i

/-- A segment of the stream is taken for what it is: no trailer before the marker; the
marker with its handshake in a segment of its own kind, without any of the trailer; image data
behind it; and the whole trailer in the last 100 bytes of its segment. -/
structure Told (u : Image) (s : Receiver) (seg : Segment) : Prop where
  early : s.taken + seg.data.length ≤ u.markerAt → route s seg.data = .update →
    ∀ i, s.sight seg.data ≠ some (.trailer i)
  header : s.taken ≤ u.markerAt → u.markerAt < s.taken + seg.data.length →
    route s seg.data = .update ∧ s.sight seg.data = some (.header (u.markerAt - s.taken)) ∧
      s.taken + seg.data.length ≤ u.trailerAt
  body : u.markerAt < s.taken → s.taken + seg.data.length ≤ u.trailerAt →
    route s seg.data = .update ∧ s.sight seg.data = some .body
  last : u.markerAt < s.taken → s.taken ≤ u.trailerAt → u.trailerAt < s.taken + seg.data.length →
    route s seg.data = .update ∧ s.sight seg.data = some (.trailer (u.trailerAt - s.taken))

/-! ## One segment -/

section
variable {serve : List UInt8 → Board → Board} {s : Receiver} {seg : Segment}

theorem engine_taken : (httpEngine serve s seg).taken = s.taken + seg.data.length := by
  unfold httpEngine
  dsimp only
  cases route s seg.data with
  | update => rfl
  | begin => rfl
  | serve => rfl
  | refuse => rfl
  | ignore => rfl

theorem run_taken (segs : List Segment) : (run (httpEngine serve) s segs).taken = s.taken + (carried segs).length := by
  induction segs generalizing s with
  | nil => rfl
  | cons seg segs ih =>
    rw [run_cons, ih, engine_taken, carried, carried, List.map_cons, List.flatten_cons, List.length_append, Nat.add_assoc]

theorem engine_update (h : route s seg.data = .update) : httpEngine serve s seg =
    { s with mem := s.ram seg.data, taken := s.taken + seg.data.length }.finish (s.turn seg.data) := by
  unfold httpEngine
  dsimp only
  rw [h]
  rfl

theorem engine_calls (h : route s seg.data ≠ .update) : (httpEngine serve s seg).calls = s.calls := by
  unfold httpEngine
  dsimp only
  cases hr : route s seg.data with
  | update => exact absurd hr h
  | begin => rfl
  | serve => rfl
  | refuse => rfl
  | ignore => rfl

theorem route_running (h : s.running = false) (rx : List UInt8) : route s rx = .ignore := by
  rw [route, h]
  rfl

/-- The boot parameters are written with the last segment only. -/
theorem shown_boot {rx : List UInt8} {v : Sight} {t : Turn} (h : Shown s rx (some v) t) (hv : ∀ i, v ≠ .trailer i) :
    t.calls.countP (·.what = .bootParam) = 0 := by
  cases h with
  | header => rfl
  | trailer i => exact absurd rfl (hv i)
  | body => rfl
  | idle => rfl

/-- A segment that is not taken for the last one leaves the boot parameters. -/
theorem bootWrites_engine (hs : Sound s seg)
    (hv : route s seg.data = .update → ∀ i, s.sight seg.data ≠ some (.trailer i)) :
    (httpEngine serve s seg).bootWrites = s.bootWrites := by
  by_cases h : route s seg.data = .update
  · obtain ⟨v, hsight, -⟩ := hs h
    have hshown := @turn_shown s seg.data
    rw [hsight] at hshown
    have hzero := shown_boot hshown fun i hi => hv h i (hi ▸ hsight)
    rw [engine_update h]
    change (s.calls ++ (s.turn seg.data).calls).countP _ = _
    rw [List.countP_append, hzero]
    rfl
  · rw [Receiver.bootWrites, engine_calls h, Receiver.bootWrites]

theorem safe_iff_sound : Safe s seg ↔ Sound s seg :=
  forall_congr' fun _ => clear_iff seg.fits

theorem engine_shown (serve : List UInt8 → Board → Board) {v : Sight} (h : route s seg.data = .update) (hsight : s.sight seg.data = some v)
    (hv : v.Fits s.firmwareSize seg.data) :
    (httpEngine serve s seg).flash = v.image s seg.data ∧
      (∀ i, v = .header i → (httpEngine serve s seg).firmwareSize.toNat = seg.data.length - (i + 256)) ∧
      (v = .body → (httpEngine serve s seg).firmwareSize.toNat = s.firmwareSize.toNat + seg.data.length) ∧
      ∀ i, v = .trailer i →
        (httpEngine serve s seg).running = false ∧ (httpEngine serve s seg).bootWrites = s.bootWrites + 1 ∧
          i + trailer.length ≤ seg.data.length := by
  have hword : seg.data.length < 2 ^ 32 := Nat.lt_of_le_of_lt seg.fits (by decide)
  have hshown := @turn_shown s seg.data
  rw [hsight] at hshown
  have hflash := shown_flash seg.fits hshown hv
  rw [engine_update h]
  refine ⟨?_, ?_, ?_, ?_⟩
  · change (s.turn seg.data).flash.getD s.flash = _
    rw [hflash]
    rfl
  · rintro i rfl
    change (s.turn seg.data).firmwareSize.toNat = _
    generalize s.turn seg.data = t at hshown ⊢
    cases hshown with
    | header _ ts _ hle =>
      have hi : i + 256 ≤ seg.data.length := hv
      have hlen : ((seg.data.length - i : Nat) : Int) - 256 = ((seg.data.length - (i + 256) : Nat) : Int) := by omega
      dsimp only
      rw [hlen, word_nat (by omega)]
  · rintro rfl
    change (s.turn seg.data).firmwareSize.toNat = _
    generalize s.turn seg.data = t at hshown ⊢
    cases hshown with
    | body ts _ _ =>
      have hfits : s.firmwareSize.toNat + seg.data.length ≤ 0x30000 := hv
      dsimp only
      rw [UInt32.toNat_add, word_nat hword, Nat.mod_eq_of_lt (by omega)]
  · rintro i rfl
    change ((s.turn seg.data).flash.isSome && (s.turn seg.data).ret != 0) = false ∧
      (s.calls ++ (s.turn seg.data).calls).countP _ = _ ∧ _
    rw [List.countP_append]
    generalize s.turn seg.data = t at hshown ⊢
    cases hshown with
    | trailer _ ts _ hle => exact ⟨Bool.and_false _, rfl, hle⟩

/-! ## The phases of an upload -/

/-- How far an upload has come: before its marker, within the payload, behind the trailer. -/
inductive Phase (u : Image) (s : Receiver) : Prop
  | before : s.taken ≤ u.markerAt → s.bootWrites = 0 → Phase u s
  | within : u.payloadAt ≤ s.taken → s.taken ≤ u.trailerAt → s.firmwareSize.toNat = s.taken - u.payloadAt →
      Holds s.flash nvmFwBakOffset (u.payload.take (s.taken - u.payloadAt)) → s.bootWrites = 0 → Phase u s
  | done : u.trailerAt + trailer.length ≤ s.taken → s.running = false → Holds s.flash nvmFwBakOffset u.payload →
      s.bootWrites = 1 → Phase u s

variable {u : Image}

theorem holds_patch_self {m : Nat → UInt8} {a : Nat} {l : List UInt8} : Holds (patch m a l) a l :=
  fun _ _ => patch_inside _

/-- The bytes stored next go behind those already stored. -/
theorem holds_patch_next {f : Nat → UInt8} {l r : List UInt8} {size : UInt32} (h : Holds f nvmFwBakOffset l)
    (hsize : size.toNat = l.length) (hfits : l.length + r.length ≤ fwImgSizeMax) :
    Holds (patch f (0x34000 + size).toNat r) nvmFwBakOffset (l ++ r) := by
  have hpos : (0x34000 + size).toNat = nvmFwBakOffset + l.length := by
    rw [UInt32.toNat_add, hsize]
    exact Nat.mod_eq_of_lt (show 0x34000 + l.length < 2 ^ 32 by unfold fwImgSizeMax at hfits; omega)
  rw [hpos, holds_append]
  exact ⟨fun i hi => (patch_below (by omega)).trans (h i hi), holds_patch_self⟩

theorem stream_payload : u.stream.drop u.payloadAt = u.payload ++ (trailer ++ u.rest) := by
  have hlen : u.payloadAt = (u.front ++ u.handshake).length := by
    rw [List.length_append, u.handshake_length]
    rfl
  rw [Image.stream, ← List.append_assoc, hlen, List.drop_left]

theorem take_stream {k : Nat} (hk : u.payloadAt + k ≤ u.trailerAt) :
    (u.stream.drop u.payloadAt).take k = u.payload.take k := by
  rw [stream_payload, List.take_append_of_le_length (Nat.le_of_add_le_add_left hk)]

theorem drop_stream {n : Nat} (hn : u.payloadAt ≤ n) : u.stream.drop n = (u.stream.drop u.payloadAt).drop (n - u.payloadAt) := by
  rw [List.drop_drop, Nat.add_sub_cancel' hn]

theorem payload_append (hslice : seg.data <+: u.stream.drop s.taken) (hfrom : u.payloadAt ≤ s.taken) {j : Nat}
    (hj : j ≤ seg.data.length) (hto : s.taken + j ≤ u.trailerAt) :
    u.payload.take (s.taken - u.payloadAt) ++ seg.data.take j = u.payload.take (s.taken + j - u.payloadAt) := by
  have hrx : seg.data.take j = ((u.stream.drop u.payloadAt).drop (s.taken - u.payloadAt)).take j := by
    rw [List.prefix_iff_eq_take.mp hslice, List.take_take, Nat.min_eq_left hj, drop_stream hfrom]
  rw [hrx, ← take_stream (k := s.taken - u.payloadAt) (by omega), ← List.take_add, take_stream (by omega),
    show s.taken - u.payloadAt + j = s.taken + j - u.payloadAt by omega]

theorem payload_begin (hslice : seg.data <+: u.stream.drop s.taken) {i : Nat} (hi : s.taken + i = u.payloadAt)
    (hle : s.taken + seg.data.length ≤ u.trailerAt) (hin : i ≤ seg.data.length) :
    seg.data.drop i = u.payload.take (s.taken + seg.data.length - u.payloadAt) := by
  have hrx : seg.data.drop i = ((u.stream.drop s.taken).take seg.data.length).drop i :=
    congrArg (List.drop i) (List.prefix_iff_eq_take.mp hslice)
  rw [hrx, List.drop_take, List.drop_drop, hi, take_stream (by omega),
    show seg.data.length - i = s.taken + seg.data.length - u.payloadAt by omega]

theorem phase_step (h : Phase u s) (hslice : seg.data <+: u.stream.drop s.taken) (hs : Sound s seg) (ht : Told u s seg) :
    Phase u (httpEngine serve s seg) := by
  have htaken := @engine_taken serve s seg
  cases h with
  | before hle hzero =>
    by_cases hend : s.taken + seg.data.length ≤ u.markerAt
    · exact .before (by rw [htaken]; exact hend) (by rw [bootWrites_engine hs (ht.early hend), hzero])
    · obtain ⟨hroute, hsight, hto⟩ := ht.header hle (Nat.lt_of_not_le hend)
      obtain ⟨v, hv, hfits⟩ := hs hroute
      cases hsight.symm.trans hv
      have hwhole : u.markerAt - s.taken + 256 ≤ seg.data.length := hfits
      have hpay : s.taken + (u.markerAt - s.taken + 256) = u.payloadAt := by
        change _ = u.markerAt + 256
        omega
      obtain ⟨hflash, hsize, -, -⟩ := engine_shown serve hroute hsight hfits
      refine .within (by rw [htaken]; omega) (by rw [htaken]; exact hto) ?_ ?_ ?_
      · rw [hsize _ rfl, htaken]
        omega
      · rw [hflash, htaken, ← payload_begin hslice hpay hto hwhole]
        exact holds_patch_self
      · rw [bootWrites_engine hs (fun _ i hi => by rw [hsight] at hi; cases hi), hzero]
  | within hfrom hto hsize hholds hzero =>
    have hafter : u.markerAt < s.taken := Nat.lt_of_lt_of_le (Nat.lt_add_of_pos_right (by decide)) hfrom
    have hsmall : s.firmwareSize.toNat = (u.payload.take (s.taken - u.payloadAt)).length := by
      rw [hsize, List.length_take, Nat.min_eq_left]
      change s.taken ≤ u.payloadAt + u.payload.length at hto
      omega
    by_cases hend : s.taken + seg.data.length ≤ u.trailerAt
    · obtain ⟨hroute, hsight⟩ := ht.body hafter hend
      obtain ⟨v, hv, hfits⟩ := hs hroute
      cases hsight.symm.trans hv
      obtain ⟨hflash, -, hsize', -⟩ := engine_shown serve hroute hsight hfits
      refine .within (by rw [htaken]; omega) (by rw [htaken]; exact hend) ?_ ?_ ?_
      · rw [hsize' rfl, htaken, hsize]
        omega
      · have hdata := payload_append hslice hfrom (Nat.le_refl _) hend
        rw [List.take_length] at hdata
        rw [hflash, htaken, ← hdata]
        exact holds_patch_next hholds hsmall (by rw [← hsmall]; exact hfits)
      · rw [bootWrites_engine hs (fun _ i hi => by rw [hsight] at hi; cases hi), hzero]
    · obtain ⟨hroute, hsight⟩ := ht.last hafter hto (Nat.lt_of_not_le hend)
      obtain ⟨v, hv, hfits⟩ := hs hroute
      cases hsight.symm.trans hv
      obtain ⟨hflash, -, -, hlast⟩ := engine_shown serve hroute hsight hfits
      obtain ⟨hstop, hone, hwhole⟩ := hlast _ rfl
      have hdata := payload_append hslice hfrom (j := u.trailerAt - s.taken) (by omega) (by omega)
      refine .done ?_ hstop ?_ (by rw [hone, hzero])
      · rw [htaken]
        omega
      · have hall : s.taken + (u.trailerAt - s.taken) - u.payloadAt = u.payload.length := by
          have : u.trailerAt = u.payloadAt + u.payload.length := rfl
          omega
        rw [hall, List.take_length] at hdata
        have hlen : (u.payload.take (s.taken - u.payloadAt)).length + (seg.data.take (u.trailerAt - s.taken)).length ≤
            fwImgSizeMax := by
          rw [← hsmall, List.length_take, Nat.min_eq_left (by omega)]
          exact hfits
        have hstored := holds_patch_next hholds hsmall hlen
        rw [hdata] at hstored
        rw [hflash]
        exact fun i hi => (patch_above (by rw [length_bootParam]; unfold nvmFwBakOffset; omega)).trans (hstored i hi)
  | done hend hstop hholds hone =>
    have hroute := route_running hstop seg.data
    have hsame : httpEngine serve s seg = { s with taken := s.taken + seg.data.length } := by
      unfold httpEngine
      dsimp only
      rw [hroute]
    rw [hsame]
    exact .done (Nat.le_trans hend (Nat.le_add_right _ _)) hstop hholds hone

end

/-! ## Whole uploads -/

section
variable {serve : List UInt8 → Board → Board}

/-- The segments are the stream, piece by piece. -/
theorem meets_slice {u : Image} : ∀ {s : Receiver} {segs : List Segment}, u.stream.drop s.taken = carried segs →
    Meets (httpEngine serve) (fun s seg => seg.data <+: u.stream.drop s.taken) s segs
  | _, [], _ => trivial
  | s, seg :: segs, h => by
    rw [carried, List.map_cons, List.flatten_cons] at h
    refine ⟨⟨_, h.symm⟩, meets_slice ?_⟩
    rw [engine_taken, ← List.drop_drop, h, List.drop_left]
    rfl

theorem meets_iff_sound {s : Receiver} {segs : List Segment} :
    Meets (httpEngine serve) Safe s segs ↔ Meets (httpEngine serve) Sound s segs :=
  meets_iff_of_inv (I := fun _ => True) (fun _ _ _ _ => trivial) (fun _ _ _ => safe_iff_sound) trivial segs

theorem run_phase {u : Image} {s : Receiver} {segs front : List Segment} (h : Phase u s)
    (hstream : u.stream.drop s.taken = carried segs) (hs : Meets (httpEngine serve) Sound s segs)
    (ht : Meets (httpEngine serve) (Told u) s segs) (hp : front <+: segs) : Phase u (run (httpEngine serve) s front) :=
  inv_of_meets (fun _ _ hi hg => phase_step hi hg.1 hg.2.1 hg.2.2) s front h
    (((meets_slice hstream).and (hs.and ht)).take hp)

theorem length_stream {u : Image} : u.stream.length = u.trailerAt + trailer.length + u.rest.length := by
  simp only [Image.stream, Image.trailerAt, Image.payloadAt, Image.markerAt, List.length_append, u.handshake_length]
  omega

/-- Behind the whole stream the image is in its place. -/
theorem phase_image {u : Image} {s : Receiver} (h : Phase u s) (hall : s.taken = u.stream.length) :
    Holds s.flash nvmFwBakOffset u.payload := by
  have hlen := @length_stream u
  have hpos : 0 < trailer.length := by decide
  cases h with
  | before hle =>
    have hto : u.markerAt ≤ u.trailerAt := Nat.le_trans (Nat.le_add_right _ _) (Nat.le_add_right _ _)
    omega
  | within _ hto => omega
  | done _ _ hholds _ => exact hholds

theorem phase_bootWrites {u : Image} {s : Receiver} (h : Phase u s) :
    s.bootWrites = if u.trailerAt + trailer.length ≤ s.taken then 1 else 0 := by
  have hpos : 0 < trailer.length := by decide
  cases h with
  | before hle hzero =>
    have hto : u.markerAt ≤ u.trailerAt := Nat.le_trans (Nat.le_add_right _ _) (Nat.le_add_right _ _)
    rw [hzero, if_neg (by omega)]
  | within _ hto _ _ hzero => rw [hzero, if_neg (by omega)]
  | done hend _ _ hone => rw [hone, if_pos hend]

/-- Without a trailer in the stream there is nothing to be taken for one. -/
theorem no_trailer {s : Receiver} {seg : Segment} (he : Exact s seg) (hseg : ¬trailer <:+: seg.data)
    (h : route s seg.data = .update) (i : Nat) : s.sight seg.data ≠ some (.trailer i) := fun hsight =>
  hseg ((he h i hsight).isInfix.trans (List.drop_suffix i _).isInfix)

/-- **The firmware upload.** Each call of `http_update` keeps to its segment and its flash
exactly when its searches end in the segment and what they find fits. In such a run the boot
parameters stay if the stream has no trailer and nothing is taken for one; and where each
segment is taken for what it is, the image is installed. -/
theorem firmware_upload (serve : List UInt8 → Board → Board) (mem flash : Nat → UInt8) (fmwStartSign : Bool)
    (firmwareSize : UInt32) (segs : List Segment) :
    (Meets (httpEngine serve) Safe (begun mem flash fmwStartSign firmwareSize) segs ↔
      Meets (httpEngine serve) Sound (begun mem flash fmwStartSign firmwareSize) segs) ∧
    (Meets (httpEngine serve) Sound (begun mem flash fmwStartSign firmwareSize) segs →
      Meets (httpEngine serve) Exact (begun mem flash fmwStartSign firmwareSize) segs → ¬trailer <:+: carried segs →
      (run (httpEngine serve) (begun mem flash fmwStartSign firmwareSize) segs).bootWrites = 0) ∧
    ∀ u : Image, u.stream = carried segs →
      Meets (httpEngine serve) Sound (begun mem flash fmwStartSign firmwareSize) segs →
      Meets (httpEngine serve) (Told u) (begun mem flash fmwStartSign firmwareSize) segs →
      Installed serve (begun mem flash fmwStartSign firmwareSize) segs u := by
  refine ⟨meets_iff_sound, fun hs he hno => ?_, fun u hstream hs ht => ?_⟩
  · have hsegs : ∀ seg ∈ segs, ¬trailer <:+: seg.data := fun seg hseg hin =>
      hno (hin.trans (List.infix_of_mem_flatten (List.mem_map_of_mem hseg)))
    refine inv_of_meets (I := fun s => s.bootWrites = 0) (fun s seg hzero hg => ?_) _ segs rfl
      (hs.and (he.and (meets_of_mem hsegs)))
    rw [bootWrites_engine hg.1 (no_trailer hg.2.1 hg.2.2), hzero]
  · have hphase : ∀ front, front <+: segs → Phase u (run (httpEngine serve) (begun mem flash fmwStartSign firmwareSize) front) :=
      fun front hp => run_phase (.before (Nat.zero_le _) rfl) hstream hs ht hp
    have htaken : ∀ front : List Segment, (run (httpEngine serve) (begun mem flash fmwStartSign firmwareSize) front).taken =
        (carried front).length := fun front => by
      rw [run_taken]
      exact Nat.zero_add _
    refine ⟨?_, fun front hp => ?_⟩
    · exact phase_image (hphase segs (List.prefix_refl segs)) ((htaken segs).trans (congrArg List.length hstream.symm))
    · rw [phase_bootWrites (hphase front hp), htaken]

def sampleHandshake : List UInt8 := marker ++ List.replicate 249 1

def sampleImage : Image where
  front := []
  handshake := sampleHandshake
  payload := List.replicate 4 7 ++ List.replicate 92 9
  rest := []
  handshake_length := by decide +kernel
  handshake_marker := List.prefix_append _ _
  front_marker := by decide
  payload_marker := by decide +kernel
  payload_trailer := by decide +kernel

/-- The handshake with the first bytes of the image, and the rest with the trailer. -/
def sampleSegments : List Segment :=
  [⟨sampleHandshake ++ List.replicate 4 7, by decide +kernel, by decide +kernel⟩,
   ⟨List.replicate 92 9 ++ trailer, by decide +kernel, by decide +kernel⟩]

theorem firmware_upload_sample :
    Installed (fun _ b => b) (begun (fun _ => 0) (fun _ => 0xFF) false 0) sampleSegments sampleImage :=
  (firmware_upload (fun _ b => b) (fun _ => 0) (fun _ => 0xFF) false 0 sampleSegments).2.2 sampleImage (by decide +kernel)
    ⟨fun _ => ⟨.header 0, by decide +kernel, by decide +kernel⟩, fun _ => ⟨.trailer 92, by decide +kernel, by decide +kernel⟩, trivial⟩
    ⟨{ early := fun h => absurd h (by decide +kernel)
       header := fun _ _ => ⟨by decide +kernel, by decide +kernel, by decide +kernel⟩
       body := fun h => absurd h (by decide +kernel)
       last := fun h => absurd h (by decide +kernel) },
     { early := fun h => absurd h (by decide +kernel)
       header := fun h => absurd h (by decide +kernel)
       body := fun _ h => absurd h (by decide +kernel)
       last := fun _ _ _ => ⟨by decide +kernel, by decide +kernel⟩ }, trivial⟩

def wholeSegment : Segment :=
  ⟨sampleHandshake ++ List.replicate 4 7 ++ List.replicate 92 9 ++ trailer, by decide +kernel, by decide +kernel⟩

/-- The same stream in one segment is stored and never completed; and a last segment of
the trailer alone has the receiver read before its buffer. -/
theorem trailer_missed :
    (sampleImage.stream = carried [wholeSegment] ∧
      ¬Installed (fun _ b => b) (begun (fun _ => 0) (fun _ => 0xFF) false 0) [wholeSegment] sampleImage) ∧
    ¬Meets (httpEngine fun _ b => b) Safe (begun (fun _ => 0) (fun _ => 0xFF) false 0)
      [⟨sampleHandshake ++ List.replicate 4 7, by decide +kernel, by decide +kernel⟩, ⟨trailer, by decide, by decide⟩] := by
  refine ⟨⟨by decide +kernel, fun h => ?_⟩, fun h => ?_⟩
  · have hboot := h.boot _ (List.prefix_refl _)
    revert hboot
    decide +kernel
  · have hreads := (h.2.1 (by decide +kernel)).reads 8
    revert hreads
    decide +kernel

end

end SerialNet.Upload
