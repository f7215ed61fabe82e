import SerialNet.Lib.Run
import SerialNet.Lwip.MemCalls

/-!
# The heap over any run

Beside the heap stand the buffers that were handed out, each with what its owner
has put there. The calls of the owners come in any order.
-/

namespace SerialNet.Mem

open Blocks Run

/-! ## The owners -/

structure Buffer where
  ptr : Nat
  data : List UInt8
  deriving DecidableEq, Repr

def Heap.read (h : Heap) (a n : Nat) : List UInt8 := (List.range n).map fun i => h.ram (a + i)

def Heap.write (h : Heap) (a : Nat) (v : UInt8) : Heap := { h with ram := fun x => if x = a then v else h.ram x }

/-- What a caller may use of the bytes it asked for: rounding 65533 and more up
ends in a block of twelve bytes. -/
def usable (size : UInt16) : Nat := min size.toNat (request size.toNat)

inductive Op where
  | malloc (size : UInt16)
  | free (rmem : Option Nat)
  | trim (rmem : Nat) (newsize : UInt16)
  | write (rmem off : Nat) (v : UInt8)
  deriving DecidableEq, Repr

structure State where
  heap : Heap
  bufs : List Buffer

def Op.owner : Op → Option Nat
  | .malloc _ => none
  | .free rmem => rmem
  | .trim rmem _ => some rmem
  | .write rmem _ _ => some rmem

def ptrs (bufs : List Buffer) : List Nat := bufs.map (·.ptr)

def update (bufs : List Buffer) (rmem : Nat) (f : List UInt8 → List UInt8) : List Buffer :=
  bufs.map fun b => if b.ptr = rmem then { b with data := f b.data } else b

/-- The state after a call, `none` when the call does not return. -/
def State.step (s : State) : Op → Option State
  | .malloc size =>
    (memMalloc s.heap size.toNat).map fun (h, r) =>
      match r with
      | none => ⟨h, s.bufs⟩
      | some p => ⟨h, ⟨p, h.read p (usable size)⟩ :: s.bufs⟩
  | .free rmem => some ⟨memFree s.heap rmem, s.bufs.filter fun b => some b.ptr ≠ rmem⟩
  | .trim rmem newsize =>
    let (h, r) := memTrim s.heap rmem newsize.toNat
    some ⟨h, if r.isSome then update s.bufs rmem (·.take (usable newsize)) else s.bufs⟩
  | .write rmem off v => some ⟨s.heap.write (rmem + off) v, update s.bufs rmem (·.set off v)⟩

def Allowed (s : State) : Op → Prop
  | .malloc _ => True
  | .free none => True
  | .free (some p) => p ∈ ptrs s.bufs
  | .trim p _ => p ∈ ptrs s.bufs
  | .write p off _ => ∃ b ∈ s.bufs, b.ptr = p ∧ off < b.data.length

instance (s : State) (op : Op) : Decidable (Allowed s op) := by
  cases op with
  | free rmem => cases rmem <;> unfold Allowed <;> infer_instance
  | malloc size | trim rmem newsize | write rmem off v => unfold Allowed; infer_instance

def stepO (s : Option State) (op : Op) : Option State := s.bind (·.step op)

def AllowedO (s : Option State) (op : Op) : Prop := ∀ t ∈ s, Allowed t op

instance (s : Option State) (op : Op) : Decidable (AllowedO s op) := by
  unfold AllowedO
  infer_instance

def started (ram : Nat → UInt8) : Option State := some ⟨memInit ram, []⟩

section
variable {h h' : Heap} {bs pre post xs ys : List Blk} {b : Blk} {buf : Buffer} {bufs : List Buffer} {p x : Nat}

@[simp] theorem length_read (h : Heap) (a n : Nat) : (h.read a n).length = n := by simp [Heap.read]

theorem read_congr {a n : Nat} (hram : ∀ x, a ≤ x → x < a + n → h'.ram x = h.ram x) : h'.read a n = h.read a n := by
  refine List.map_congr_left fun i hi => ?_
  have := List.mem_range.mp hi
  exact hram (a + i) (by omega) (by omega)

theorem take_read (h : Heap) (a n k : Nat) : (h.read a n).take k = h.read a (min k n) := by
  unfold Heap.read
  rw [← List.map_take, List.take_range]

theorem read_write (h : Heap) (a n off : Nat) (v : UInt8) : (h.write (a + off) v).read a n = (h.read a n).set off v := by
  refine List.ext_getElem (by simp) fun i hi _ => ?_
  simp only [Heap.read, Heap.write, List.getElem_map, List.getElem_range, List.getElem_set, Nat.add_left_cancel_iff]
  by_cases hoff : i = off
  · rw [if_pos hoff, if_pos hoff.symm]
  · rw [if_neg hoff, if_neg fun heq => hoff heq.symm]

@[simp] theorem ptrs_update (bufs : List Buffer) (rmem : Nat) (f : List UInt8 → List UInt8) :
    ptrs (update bufs rmem f) = ptrs bufs := by
  unfold ptrs update
  rw [List.map_map]
  refine List.map_congr_left fun b _ => ?_
  by_cases hb : b.ptr = rmem <;> simp [hb]

/-! ## Where the buffers lie -/

/-- The buffer lies in a used block and holds what its owner expects. -/
def Placed (h : Heap) (bs : List Blk) (buf : Buffer) : Prop :=
  ∃ pre b post, bs = pre ++ b :: post ∧ b.free = false ∧ buf.ptr = fin 8 0 pre + 8 ∧ buf.data.length ≤ b.size ∧
    h.read buf.ptr buf.data.length = buf.data

structure Inv (s : State) (bs : List Blk) : Prop where
  rep : Rep s.heap bs
  nodup : (ptrs s.bufs).Nodup
  live : ∀ x, x ∈ ptrs s.bufs ↔ x ∈ live 8 0 bs
  placed : ∀ buf ∈ s.bufs, Placed s.heap bs buf

theorem block_unique {bs pre' post' : List Blk} {b' : Blk} (h1 : bs = pre ++ b :: post) (h2 : bs = pre' ++ b' :: post')
    (heq : fin 8 0 pre = fin 8 0 pre') : pre = pre' ∧ b = b' ∧ post = post' := by
  rcases block_apart 8 (a := 0) h1 h2 with hsame | hapart | hapart
  · exact hsame
  · omega
  · omega

/-- A call that is confined to the blocks `xs` keeps the buffers in the others. -/
theorem Placed.keep (hp : Placed h (pre ++ (xs ++ post)) buf)
    (hconf : Confined h h' (fin 8 0 pre) (fin 8 (fin 8 0 pre) xs + 8))
    (hfin : fin 8 (fin 8 0 pre) ys = fin 8 (fin 8 0 pre) xs) :
    Placed h' (pre ++ (ys ++ post)) buf ∨
      ∃ m c m', xs = m ++ c :: m' ∧ c.free = false ∧ buf.ptr = fin 8 (fin 8 0 pre) m + 8 := by
  obtain ⟨l, c, r, heq, hc, hptr, hlen, hread⟩ := hp
  rcases mid_cases heq with ⟨m, rfl, rfl⟩ | ⟨m, m', rfl, rfl, rfl⟩ | ⟨m, rfl, rfl⟩
  · left
    refine ⟨l, c, m ++ (ys ++ post), by simp, hc, hptr, hlen, (read_congr fun x _ hx => hconf x (.inl ?_)).trans hread⟩
    rw [fin_append, fin_cons]
    have := le_fin 8 m (fin 8 0 l + 8 + c.size)
    omega
  · right
    exact ⟨m, c, m', rfl, hc, by rw [hptr, fin_append]⟩
  · left
    have hl : fin 8 0 (pre ++ (ys ++ m)) = fin 8 0 (pre ++ (xs ++ m)) := by
      rw [fin_append, fin_append, fin_append, fin_append, hfin]
    refine ⟨pre ++ (ys ++ m), c, r, by simp, hc, by rw [hptr, hl], hlen,
      (read_congr fun x hx _ => hconf x (.inr ?_)).trans hread⟩
    rw [hptr, fin_append, fin_append] at hx
    have := le_fin 8 m (fin 8 (fin 8 0 pre) xs)
    omega

theorem Inv.block {s : State} (hi : Inv s bs) (hp : p ∈ ptrs s.bufs) :
    ∃ pre b post, bs = pre ++ b :: post ∧ b.free = false ∧ p = fin 8 0 pre + 8 := (mem_live 8).mp ((hi.live p).mp hp)

theorem live_replace {s : State} (hi : Inv s (pre ++ (xs ++ post)))
    (hfin : fin 8 (fin 8 0 pre) ys = fin 8 (fin 8 0 pre) xs) (x : Nat) :
    (x ∈ live 8 0 (pre ++ (ys ++ post)) ↔ x ∈ live 8 (fin 8 0 pre) ys ∨
      x ∈ ptrs s.bufs ∧ x ∉ live 8 (fin 8 0 pre) xs) := by
  have hnodup := nodup_live 8 (by decide) (pre ++ (xs ++ post)) 0
  rw [live_append, live_append, List.nodup_append, List.nodup_append] at hnodup
  obtain ⟨-, ⟨-, -, hright⟩, hleft⟩ := hnodup
  rw [mem_live_mid hfin, hi.live, mem_live_mid rfl]
  constructor
  · rintro (hx | hx | hx)
    · exact .inr ⟨.inl hx, fun hm => hleft x hx x (by simp [hm]) rfl⟩
    · exact .inl hx
    · exact .inr ⟨.inr (.inr hx), fun hm => hright x hm x hx rfl⟩
  · rintro (hx | ⟨hx | hx | hx, hn⟩)
    · exact .inr (.inl hx)
    · exact .inl hx
    · exact absurd hx hn
    · exact .inr (.inr hx)

/-! ## One call -/

theorem live_taken (b : Blk) (n a : Nat) : live 8 a (taken b n) = [a + 8] := by
  unfold taken
  split
  · rfl
  · rfl

theorem fin_taken (b : Blk) (n a : Nat) : fin 8 a (taken b n) = fin 8 a [b] := by
  unfold taken
  split
  · simp only [fin_cons, fin_nil]
    omega
  · rfl

theorem Inv.malloc {s : State} (hi : Inv s bs) (size : UInt16) :
    ∃ s' bs', s.step (.malloc size) = some s' ∧ Inv s' bs' := by
  obtain ⟨h', r, heq, hm⟩ := memMalloc_spec hi.rep size.toNat
  cases hm with
  | refused => exact ⟨⟨s.heap, s.bufs⟩, bs, by rw [State.step, heq]; rfl, hi.rep, hi.nodup, hi.live, hi.placed⟩
  | granted _ pre b post hbs h0 hfirst hb hfit hrep hram =>
    subst hbs
    have hi : Inv s (pre ++ ([b] ++ post)) := hi
    have hfin := fin_taken b (request size.toNat) (fin 8 0 pre)
    have hlive : Blocks.live 8 (fin 8 0 pre) [b] = [] := live_free (by simpa using hb) _
    have hptrs := live_replace hi hfin
    rw [live_taken, hlive] at hptrs
    have hnew : fin 8 0 pre + 8 ∉ ptrs s.bufs := fun hmem => by
      obtain ⟨l, c, r, heq, hc, hptr⟩ := Inv.block hi hmem
      obtain ⟨-, rfl, -⟩ := block_unique (rfl : pre ++ b :: post = _) heq (by omega)
      rw [hb] at hc
      cases hc
    refine ⟨⟨h', ⟨fin 8 0 pre + 8, h'.read (fin 8 0 pre + 8) (usable size)⟩ :: s.bufs⟩, _,
      by rw [State.step, heq]; rfl, hrep, List.nodup_cons.mpr ⟨hnew, hi.nodup⟩, fun x => ?_, ?_⟩
    · rw [hptrs]
      simp [ptrs]
    · refine List.forall_mem_cons.mpr ⟨?_, fun buf hbuf => ?_⟩
      · obtain ⟨n, r, htaken, hlen⟩ : ∃ n r, taken b (request size.toNat) = ⟨n, false⟩ :: r ∧ request size.toNat ≤ n := by
          unfold taken
          split
          · exact ⟨_, _, rfl, Nat.le_refl _⟩
          · exact ⟨_, _, rfl, hfit⟩
        refine ⟨pre, ⟨n, false⟩, r ++ post, by rw [htaken]; rfl, rfl, rfl, ?_, ?_⟩
        · rw [length_read]
          exact Nat.le_trans (Nat.min_le_right _ _) hlen
        · rw [length_read]
      · have hconf : Confined s.heap h' (fin 8 0 pre) (fin 8 (fin 8 0 pre) [b] + 8) := hram
        rcases (hi.placed buf hbuf).keep hconf hfin with hkept | ⟨m, c, m', hm, hc, -⟩
        · exact hkept
        · -- the only block between the others was free
          have hcb : c ∈ [b] := by
            rw [hm]
            simp
          rw [List.mem_singleton.mp hcb, hb] at hc
          cases hc

theorem Inv.free {s : State} (hi : Inv s bs) {rmem : Option Nat} (ha : Allowed s (.free rmem)) :
    ∃ s' bs', s.step (.free rmem) = some s' ∧ Inv s' bs' := by
  cases rmem with
  | none =>
    refine ⟨_, bs, rfl, hi.rep, ?_, ?_, ?_⟩
    · simpa using hi.nodup
    · simpa using hi.live
    · simpa [memFree] using hi.placed
  | some p =>
    obtain ⟨pre, b, post, rfl, hb, rfl⟩ := Inv.block hi ha
    obtain ⟨pre', l, r, post', n, hf⟩ := memFree_spec hi.rep hb
    obtain rfl := hf.left
    obtain rfl := hf.right
    have hi : Inv s (pre' ++ ((l ++ b :: r) ++ post')) := by simpa using hi
    have hsize := hf.size
    rw [fin_append] at hsize
    have hfin : fin 8 (fin 8 0 pre') [⟨n, true⟩] = fin 8 (fin 8 0 pre') (l ++ b :: r) := by
      rw [fin_append]
      exact hsize
    have hlive : Blocks.live 8 (fin 8 0 pre') (l ++ b :: r) = [fin 8 (fin 8 0 pre') l + 8] :=
      live_single hf.freedLeft hb hf.freedRight
    have hptrs := live_replace hi hfin
    have hnone : Blocks.live 8 (fin 8 0 pre') [⟨n, true⟩] = [] := live_free (by simp) _
    rw [hnone, hlive, ← fin_append] at hptrs
    have hmem : ∀ x, x ∈ ptrs (s.bufs.filter fun c => some c.ptr ≠ some (fin 8 0 (pre' ++ l) + 8)) ↔
        x ∈ ptrs s.bufs ∧ x ≠ fin 8 0 (pre' ++ l) + 8 := by
      intro x
      simp only [ptrs, List.mem_map, List.mem_filter, ne_eq, Option.some.injEq, decide_not, Bool.not_eq_true',
        decide_eq_false_iff_not]
      constructor
      · rintro ⟨c, ⟨hc, hne⟩, rfl⟩
        exact ⟨⟨c, hc, rfl⟩, hne⟩
      · rintro ⟨⟨c, hc, rfl⟩, hne⟩
        exact ⟨c, ⟨hc, hne⟩, rfl⟩
    refine ⟨_, _, rfl, hf.rep, ?_, fun x => ?_, fun buf hbuf => ?_⟩
    · exact hi.nodup.sublist (List.filter_sublist.map _)
    · rw [hmem, show pre' ++ (⟨n, true⟩ :: post') = pre' ++ ([⟨n, true⟩] ++ post') from rfl, hptrs]
      simp
    · have hbuf := List.mem_filter.mp hbuf
      have hconf := hf.confined
      rcases (hi.placed buf hbuf.1).keep (by rw [← hfin]; exact hconf) hfin with hkept | ⟨m, c, m', hm, hc, hptr⟩
      · exact hkept
      · -- the used block among those that joined is the freed one
        have hin : buf.ptr ∈ Blocks.live 8 (fin 8 0 pre') (l ++ b :: r) := (mem_live 8).mpr ⟨m, c, m', hm, hc, hptr⟩
        rw [hlive, List.mem_singleton, ← fin_append] at hin
        exact absurd hbuf.2 (by simp [hin])

theorem forall_update {P : Buffer → Prop} {rmem : Nat} {f : List UInt8 → List UInt8}
    (hself : ∀ c ∈ bufs, c.ptr = rmem → P { c with data := f c.data }) (hother : ∀ c ∈ bufs, c.ptr ≠ rmem → P c) :
    ∀ c ∈ update bufs rmem f, P c := by
  intro c hc
  obtain ⟨d, hd, rfl⟩ := List.mem_map.mp hc
  by_cases hp : d.ptr = rmem
  · rw [if_pos hp]
    exact hself d hd hp
  · rw [if_neg hp]
    exact hother d hd hp

/-- The first `k` bytes of a buffer are still there. -/
theorem read_kept {k : Nat} (hread : h.read buf.ptr buf.data.length = buf.data)
    (hram : ∀ x, buf.ptr ≤ x → x < buf.ptr + k → h'.ram x = h.ram x) :
    h'.read buf.ptr (buf.data.take k).length = buf.data.take k := by
  have hsame : h'.read buf.ptr (min k buf.data.length) = h.read buf.ptr (min k buf.data.length) :=
    read_congr fun x hx hlt => hram x hx (by omega)
  rw [List.length_take, hsame, ← take_read, hread]

theorem Inv.trim {s : State} (hi : Inv s bs) {rmem : Nat} {newsize : UInt16} (ha : Allowed s (.trim rmem newsize)) :
    ∃ s' bs', s.step (.trim rmem newsize) = some s' ∧ Inv s' bs' := by
  obtain ⟨pre, b, post, rfl, hb, rfl⟩ := Inv.block hi ha
  have hspec := memTrim_spec hi.rep hb newsize.toNat
  rw [State.step]
  generalize memTrim s.heap (fin 8 0 pre + 8) newsize.toNat = out at hspec
  obtain ⟨h', r⟩ := out
  dsimp only at hspec
  cases hspec with
  | refused => exact ⟨_, _, rfl, hi.rep, hi.nodup, hi.live, hi.placed⟩
  | kept =>
    refine ⟨_, _, rfl, hi.rep, ?_, ?_, ?_⟩
    · simpa using hi.nodup
    · simpa using hi.live
    · refine forall_update (fun c hc _ => ?_) fun c hc _ => hi.placed c hc
      obtain ⟨l, d, r, heq, hd, hptr, hlen, hread⟩ := hi.placed c hc
      refine ⟨l, d, r, heq, hd, hptr, ?_, read_kept hread fun _ _ _ => rfl⟩
      rw [List.length_take]
      omega
  | cut _ r post' m hlt hcut =>
    obtain rfl := hcut.split
    have hi : Inv s (pre ++ ((b :: r) ++ post')) := hi
    have hfin : fin 8 (fin 8 0 pre) [⟨request newsize.toNat, false⟩, ⟨m, true⟩] = fin 8 (fin 8 0 pre) (b :: r) := hcut.size
    have hptrs := live_replace hi hfin
    have hlive : Blocks.live 8 (fin 8 0 pre) (b :: r) = [fin 8 0 pre + 8] := live_single (l := []) (by simp) hb hcut.freed
    have hlive' : Blocks.live 8 (fin 8 0 pre) [⟨request newsize.toNat, false⟩, ⟨m, true⟩] = [fin 8 0 pre + 8] := rfl
    rw [hlive, hlive'] at hptrs
    refine ⟨_, _, rfl, hcut.rep, ?_, fun x => ?_, ?_⟩
    · simpa using hi.nodup
    · rw [hptrs]
      simp only [Option.isSome_some, if_pos, ptrs_update, List.mem_singleton]
      by_cases hx : x = fin 8 0 pre + 8
      · have hown : fin 8 0 pre + 8 ∈ ptrs s.bufs := ha
        simp [hx, hown]
      · simp [hx]
    · refine forall_update (fun c hc hptr => ?_) fun c hc hne => ?_
      · -- the owner keeps the front of its own buffer
        obtain ⟨-, -, -, -, -, -, -, hread⟩ := hi.placed c hc
        refine ⟨pre, ⟨request newsize.toNat, false⟩, ⟨m, true⟩ :: post', rfl, rfl, hptr, ?_, read_kept hread ?_⟩
        · rw [List.length_take]
          exact Nat.le_trans (Nat.min_le_left _ _) (Nat.min_le_right _ _)
        · intro x hx hlt
          have hus : usable newsize ≤ request newsize.toNat := Nat.min_le_right _ _
          exact hcut.ram x (.inr (by omega)) (.inl (by omega))
      · have hconf : Confined s.heap h' (fin 8 0 pre) (fin 8 (fin 8 0 pre) (b :: r) + 8) := by
          intro x hx
          have hge : fin 8 0 pre + 8 + b.size ≤ fin 8 (fin 8 0 pre + 8 + b.size) r := le_fin ..
          rw [fin_cons] at hx
          exact hcut.ram x (by omega) (by omega)
        rcases (hi.placed c hc).keep hconf hfin with hkept | ⟨l, d, l', hl, hd, hptr⟩
        · exact hkept
        · have hin : c.ptr ∈ Blocks.live 8 (fin 8 0 pre) (b :: r) := (mem_live 8).mpr ⟨l, d, l', hl, hd, hptr⟩
          rw [hlive, List.mem_singleton] at hin
          exact absurd hin hne

/-! ### A write of an owner -/

theorem header_write {a y : Nat} {v : UInt8} (hay : a < y ∨ y + 8 ≤ a) : (h.write a v).header y = h.header y := by
  have hram : ∀ z, y ≤ z → z < y + 8 → (h.write a v).ram z = h.ram z := fun z _ _ => if_neg (by omega)
  unfold Heap.header Heap.next Heap.prev Heap.used Heap.word
  rw [hram y (by omega) (by omega), hram (y + 1) (by omega) (by omega), hram (y + 2) (by omega) (by omega),
    hram (y + 2 + 1) (by omega) (by omega), hram (y + 4) (by omega) (by omega)]

theorem Rep.write (hr : Rep h (pre ++ (b :: post))) {a : Nat} (v : UInt8) (hlo : fin 8 0 pre + 8 ≤ a)
    (hhi : a < fin 8 0 pre + 8 + b.size) : Rep (h.write a v) (pre ++ (b :: post)) := by
  have hle := hr.block_le
  refine ⟨⟨linked_frame hr.linked fun y hy => ?_, hr.ends, ?_, hr.sizes⟩, hr.noAdjFree, hr.lfree⟩
  · apply header_write
    obtain ⟨l, c, r, heq, rfl⟩ := (mem_addrs 8).mp hy
    rcases block_apart 8 (a := 0) rfl heq with ⟨rfl, -, -⟩ | hapart | hapart
    · exact .inr hlo
    · exact .inl (by omega)
    · exact .inr (by omega)
  · rw [header_write (.inl (by omega))]
    exact hr.endUsed

theorem Inv.write {s : State} (hi : Inv s bs) {rmem off : Nat} {v : UInt8} (ha : Allowed s (.write rmem off v)) :
    ∃ s' bs', s.step (.write rmem off v) = some s' ∧ Inv s' bs' := by
  obtain ⟨own, hown, rfl, hoff⟩ := ha
  obtain ⟨pre, b, post, rfl, hb, hptr, hlen, -⟩ := hi.placed own hown
  refine ⟨_, _, rfl, hi.rep.write v (by omega) (by omega), ?_, ?_, ?_⟩
  · simpa using hi.nodup
  · simpa using hi.live
  · dsimp only
    refine forall_update (P := Placed (s.heap.write (own.ptr + off) v) (pre ++ b :: post)) (fun c hc hcptr => ?_)
      fun c hc hne => ?_
    · obtain ⟨l, d, r, heq, hd, hcd, hclen, hread⟩ := hi.placed c hc
      refine ⟨l, d, r, heq, hd, hcd, by rwa [List.length_set], ?_⟩
      dsimp only
      rw [List.length_set, ← hcptr, read_write, hread]
    · obtain ⟨l, d, r, heq, hd, hcd, hclen, hread⟩ := hi.placed c hc
      refine ⟨l, d, r, heq, hd, hcd, hclen, (read_congr fun x hx hlt => if_neg ?_).trans hread⟩
      rcases block_apart 8 (a := 0) rfl heq with ⟨rfl, -, -⟩ | hapart | hapart
      · omega
      · omega
      · omega

theorem Inv.step {s : State} (hi : Inv s bs) {op : Op} (ha : Allowed s op) : ∃ s' bs', s.step op = some s' ∧ Inv s' bs' := by
  cases op with
  | malloc size => exact hi.malloc size
  | free rmem => exact hi.free ha
  | trim rmem newsize => exact hi.trim ha
  | write rmem off v => exact hi.write ha

/-- A buffer stays as it is in every call that is not about it. -/
theorem step_keeps {s s' : State} {op : Op} (hstep : s.step op = some s') (hbuf : buf ∈ s.bufs)
    (hown : op.owner ≠ some buf.ptr) : buf ∈ s'.bufs := by
  have hup : ∀ rmem f, some rmem ≠ some buf.ptr → buf ∈ update s.bufs rmem f := fun rmem f hne =>
    List.mem_map.mpr ⟨buf, hbuf, if_neg fun heq => hne (by rw [heq])⟩
  cases op with
  | malloc size =>
    obtain ⟨⟨h', r⟩, -, rfl⟩ := Option.map_eq_some_iff.mp hstep
    cases r with
    | none => exact hbuf
    | some p => exact List.mem_cons_of_mem _ hbuf
  | free rmem =>
    cases hstep
    exact List.mem_filter.mpr ⟨hbuf, decide_eq_true fun heq => hown heq.symm⟩
  | trim rmem newsize =>
    rw [State.step] at hstep
    generalize memTrim s.heap rmem newsize.toNat = out at hstep
    cases hstep
    dsimp only
    split
    · exact hup rmem _ hown
    · exact hbuf
  | write rmem off v =>
    cases hstep
    exact hup rmem (·.set off v) hown

/-! ## Runs -/

theorem memInit_rep (ram : Nat → UInt8) : Rep (memInit ram) [⟨8184, true⟩] := by
  have hfirst : (memInit ram).header 0 = ⟨8192, 0, true⟩ := by
    unfold memInit memSizeAligned
    dsimp only
    rw [header_setPrev_apart (.inr (by decide)), header_setNext_apart (.inr (by decide)),
      header_setUsed_apart (.inr (by decide)), header_setUsed, header_setPrev, header_setNext]
    rfl
  have hlast : ((memInit ram).header 8192).free = false := by
    unfold memInit memSizeAligned
    dsimp only
    rw [header_setPrev, header_setNext, header_setUsed]
    rfl
  refine ⟨⟨⟨hfirst, trivial⟩, rfl, hlast, ?_⟩, .singleton _, rfl⟩
  intro b hb
  rw [List.mem_singleton.mp hb]
  decide

theorem inv_started (ram : Nat → UInt8) : Inv ⟨memInit ram, []⟩ [⟨8184, true⟩] :=
  ⟨memInit_rep ram, .nil, by simp [ptrs, live], by simp⟩

/-- From a state with the invariant every allowed run goes on to the end. -/
theorem inv_run {s : State} (hi : Inv s bs) (ops : List Op) (ha : Meets stepO AllowedO (some s) ops) :
    ∃ s' bs', run stepO (some s) ops = some s' ∧ Inv s' bs' := by
  refine inv_of_meets (I := fun o => ∃ s' bs', o = some s' ∧ Inv s' bs') ?_ (some s) ops ⟨s, bs, rfl, hi⟩ ha
  rintro _ op ⟨s, bs, rfl, hi⟩ ha
  exact hi.step (ha s rfl)

theorem run_keeps {s s' : State} (hi : Inv s bs) {ops : List Op} (ha : Meets stepO AllowedO (some s) ops)
    (hrun : run stepO (some s) ops = some s') (hbuf : buf ∈ s.bufs) (hown : ∀ op ∈ ops, op.owner ≠ some buf.ptr) :
    buf ∈ s'.bufs := by
  induction ops generalizing s bs with
  | nil =>
    cases hrun
    exact hbuf
  | cons op ops ih =>
    obtain ⟨hop, hown⟩ := List.forall_mem_cons.mp hown
    obtain ⟨s₁, bs₁, hstep, hi₁⟩ := hi.step (ha.1 s rfl)
    have hstepO : stepO (some s) op = some s₁ := hstep
    rw [meets_cons, hstepO] at ha
    rw [run_cons, hstepO] at hrun
    exact ih hi₁ ha.2 hrun (step_keeps hstep hbuf hop) hown

theorem Placed.apart {c d : Buffer} (hc : Placed h bs c) (hd : Placed h bs d) (hne : c.ptr ≠ d.ptr) :
    c.ptr + c.data.length ≤ d.ptr ∨ d.ptr + d.data.length ≤ c.ptr := by
  obtain ⟨l, x, r, heq, -, hptr, hlen, -⟩ := hc
  obtain ⟨l', x', r', heq', -, hptr', hlen', -⟩ := hd
  rcases block_apart 8 (a := 0) heq heq' with ⟨rfl, -, -⟩ | hapart | hapart
  · omega
  · omega
  · omega

end

/-- Two buffers, of which the first is given back and the second is cut. -/
def twoOwners : List Op :=
  [.malloc 10, .malloc 100, .write 28 3 7, .free (some 8), .trim 28 40, .malloc 12]

/-- Every call of an allowed run returns. In every state reached the heap is
one list of blocks, of which no two neighbours are free and the used ones are
the buffers handed out; with none of these it is one free block again.
`mem_malloc` gives the lowest free block that is large enough and the null
pointer only if there is none. -/
theorem heap_tiled (ram : Nat → UInt8) (ops : List Op) (ha : Meets stepO AllowedO (started ram) ops) :
    ∃ s bs, run stepO (started ram) ops = some s ∧ Rep s.heap bs ∧ (ptrs s.bufs).Nodup ∧
      (∀ x, x ∈ ptrs s.bufs ↔ x ∈ live 8 0 bs) ∧ (s.bufs = [] → bs = [⟨8184, true⟩]) ∧
      ∀ size, (memMalloc s.heap size).map Prod.snd =
        some (if size = 0 then none else (firstFit 8 (request size) 0 bs).map (· + 8)) := by
  obtain ⟨s, bs, hrun, hi⟩ := inv_run (inv_started ram) ops ha
  refine ⟨s, bs, hrun, hi.rep, hi.nodup, hi.live, fun hnil => ?_, fun size => ?_⟩
  · have hlive : live 8 0 bs = [] := List.eq_nil_iff_forall_not_mem.mpr fun x hx => by
      have hmem := (hi.live x).mpr hx
      rw [hnil] at hmem
      cases hmem
    have hends := hi.rep.ends
    rcases single_of_live_nil 8 hi.rep.noAdjFree hlive with rfl | ⟨n, rfl⟩
    · cases hends
    · have hsize : 0 + 8 + n = 8192 := hends
      rw [show n = 8184 by omega]
  · obtain ⟨h', r, heq, hm⟩ := memMalloc_spec hi.rep size
    rw [heq]
    cases hm with
    | refused h0 =>
      rcases h0 with h0 | h0
      · simp [h0]
      · simp [h0]
    | granted _ pre b post _ h0 hfirst => simp [h0, hfirst]

theorem heap_tiled_two : Meets stepO AllowedO (started fun _ => 0) twoOwners ∧
    ∃ s bs, run stepO (started fun _ => 0) twoOwners = some s ∧ Rep s.heap bs ∧ (ptrs s.bufs).Nodup ∧
      (∀ x, x ∈ ptrs s.bufs ↔ x ∈ live 8 0 bs) ∧ (s.bufs = [] → bs = [⟨8184, true⟩]) ∧
      ∀ size, (memMalloc s.heap size).map Prod.snd =
        some (if size = 0 then none else (firstFit 8 (request size) 0 bs).map (· + 8)) :=
  ⟨by decide +kernel, heap_tiled (fun _ => 0) twoOwners (by decide +kernel)⟩

/-- Buffers lie aligned and apart and hold what their owners have put there, and
no run of calls about other buffers changes that. -/
theorem buffers_kept (ram : Nat → UInt8) (front rest : List Op)
    (ha : Meets stepO AllowedO (started ram) (front ++ rest)) :
    ∃ s t, run stepO (started ram) front = some s ∧ run stepO (started ram) (front ++ rest) = some t ∧
      s.bufs.Pairwise (fun c d => c.ptr + c.data.length ≤ d.ptr ∨ d.ptr + d.data.length ≤ c.ptr) ∧
      ∀ buf ∈ s.bufs, buf.ptr % 4 = 0 ∧ buf.ptr + buf.data.length ≤ 8192 ∧
        s.heap.read buf.ptr buf.data.length = buf.data ∧
        ((∀ op ∈ rest, op.owner ≠ some buf.ptr) → t.heap.read buf.ptr buf.data.length = buf.data) := by
  obtain ⟨hfront, hrest⟩ := meets_append.mp ha
  obtain ⟨s, bs, hrun, hi⟩ := inv_run (inv_started ram) front hfront
  have hrun : run stepO (started ram) front = some s := hrun
  rw [hrun] at hrest
  obtain ⟨t, bs', hrun', hi'⟩ := inv_run hi rest hrest
  refine ⟨s, t, hrun, by rw [run_append, hrun, hrun'], ?_, fun buf hbuf => ?_⟩
  · refine List.Pairwise.imp_of_mem (fun hc hd hne => ?_) (List.pairwise_map.mp hi.nodup)
    exact (hi.placed _ hc).apart (hi.placed _ hd) hne
  · obtain ⟨pre, b, post, rfl, -, hptr, hlen, hread⟩ := hi.placed buf hbuf
    have hle := hi.rep.block_le
    have hal := hi.rep.aligned
    refine ⟨by omega, by omega, hread, fun hown => ?_⟩
    obtain ⟨-, -, -, -, -, -, -, hkept⟩ := hi'.placed buf (run_keeps hi hrest hrun' hbuf hown)
    exact hkept

theorem buffers_kept_two : Meets stepO AllowedO (started fun _ => 0) (twoOwners ++ [.malloc 200, .free none]) ∧
    ∃ s t, run stepO (started fun _ => 0) twoOwners = some s ∧
      run stepO (started fun _ => 0) (twoOwners ++ [.malloc 200, .free none]) = some t ∧
      s.bufs.Pairwise (fun c d => c.ptr + c.data.length ≤ d.ptr ∨ d.ptr + d.data.length ≤ c.ptr) ∧
      ∀ buf ∈ s.bufs, buf.ptr % 4 = 0 ∧ buf.ptr + buf.data.length ≤ 8192 ∧
        s.heap.read buf.ptr buf.data.length = buf.data ∧
        ((∀ op ∈ ([.malloc 200, .free none] : List Op), op.owner ≠ some buf.ptr) →
          t.heap.read buf.ptr buf.data.length = buf.data) :=
  ⟨by decide +kernel, buffers_kept (fun _ => 0) twoOwners [.malloc 200, .free none] (by decide +kernel)⟩

end SerialNet.Mem
