import SerialNet.Lwip.MemRep

/-!
# What the calls do to the tiling

`mem_malloc` takes the lowest free block that is large enough, `mem_free` joins
the block with its free neighbours, `mem_trim` cuts the end off. What each call
may write is given as a range.
-/

namespace SerialNet.Mem

open Blocks

/-- The bytes outside `lo .. hi` are the same. -/
def Confined (h h' : Heap) (lo hi : Nat) : Prop := ∀ x, x < lo ∨ hi ≤ x → h'.ram x = h.ram x

section
variable {h h' : Heap} {bs pre post xs ys : List Blk} {b c : Blk} {size : Nat}

theorem request_aligned (size : Nat) : request size % 4 = 0 ∧ 12 ≤ request size := by
  have hal : alignSize size % 4 = 0 := by unfold alignSize; omega
  unfold request minSizeAligned
  split
  · exact ⟨rfl, Nat.le_refl 12⟩
  · exact ⟨hal, by omega⟩

theorem fin_aligned (hal : ∀ d ∈ xs, d.size % 4 = 0) : ∀ {a}, a % 4 = 0 → fin 8 a xs % 4 = 0 := by
  induction xs with
  | nil => intro a ha; exact ha
  | cons x xs ih =>
    intro a ha
    have hx := hal x (by simp)
    exact ih (fun d hd => hal d (by simp [hd])) (by omega)

theorem Tiles.aligned (ht : Tiles h (pre ++ post)) : fin 8 0 pre % 4 = 0 :=
  fin_aligned (fun d hd => (ht.sizes d (by simp [hd])).1) rfl

theorem Tiles.used (ht : Tiles h (pre ++ (b :: post))) : h.used (fin 8 0 pre) = 0 ↔ b.free = true := by
  rw [used_iff, ht.mid]

theorem Tiles.next_fin (ht : Tiles h (pre ++ (b :: post))) : h.next (fin 8 0 pre) = fin 8 0 (pre ++ [b]) := by
  rw [ht.next, fin_append]
  rfl

/-! ## The walks -/

theorem findMem_spec {n : Nat} (ht : Tiles h (pre ++ bs)) (hn : bs.length < n) :
    findMem h size n (fin 8 0 pre) = some (firstFit 8 size (fin 8 0 pre) bs) := by
  induction bs generalizing pre n with
  | nil =>
    obtain ⟨n, rfl⟩ : ∃ m, n = m + 1 := ⟨n - 1, by simp at hn; omega⟩
    have hfin := ht.ends
    rw [List.append_nil] at hfin
    have hstop : ¬fin 8 0 pre < memSizeAligned - size := by
      rw [hfin]
      exact Nat.not_lt.mpr (Nat.sub_le 8192 size)
    rw [findMem, if_neg hstop]
    rfl
  | cons b bs ih =>
    obtain ⟨n, rfl⟩ : ∃ m, n = m + 1 := ⟨n - 1, by simp at hn; omega⟩
    have hn : bs.length < n := by simpa using hn
    have hsnoc : Tiles h ((pre ++ [b]) ++ bs) := by simpa using ht
    have hfin : fin 8 0 (pre ++ [b]) = fin 8 0 pre + 8 + b.size := by rw [fin_append]; rfl
    have hms : memSizeAligned = 8192 := rfl
    unfold findMem
    simp only [ht.used, ht.userSize, ht.next_fin]
    by_cases hguard : fin 8 0 pre < memSizeAligned - size
    · rw [if_pos hguard, firstFit]
      split
      · rfl
      · rw [ih hsnoc hn, hfin]
    · -- what is left is too short for the size
      rw [if_neg hguard]
      have hnone : firstFit 8 size (fin 8 0 pre) (b :: bs) = none := by
        refine firstFit_none.mpr fun d hd _ => ?_
        obtain ⟨l, r, hl⟩ := List.append_of_mem hd
        rw [hl] at ht
        have hd : Tiles h ((pre ++ l) ++ d :: r) := by simpa using ht
        have hle := hd.block_le
        rw [fin_append] at hle
        have := le_fin 8 l (fin 8 0 pre)
        omega
      rw [hnone]

theorem findFree_spec {n : Nat} (ht : Tiles h (pre ++ bs)) (hn : bs.length < n) :
    findFree h n (fin 8 0 pre) = some (firstFree 8 (fin 8 0 pre) bs) := by
  induction bs generalizing pre n with
  | nil =>
    obtain ⟨n, rfl⟩ : ∃ m, n = m + 1 := ⟨n - 1, by simp at hn; omega⟩
    have hfin := ht.ends
    rw [List.append_nil] at hfin
    have hstop : ¬(h.used (fin 8 0 pre) ≠ 0 ∧ fin 8 0 pre ≠ memSizeAligned) := fun hc => hc.2 hfin
    rw [findFree, if_neg hstop]
    rfl
  | cons b bs ih =>
    obtain ⟨n, rfl⟩ : ∃ m, n = m + 1 := ⟨n - 1, by simp at hn; omega⟩
    have hn : bs.length < n := by simpa using hn
    have hsnoc : Tiles h ((pre ++ [b]) ++ bs) := by simpa using ht
    have hfin : fin 8 0 (pre ++ [b]) = fin 8 0 pre + 8 + b.size := by rw [fin_append]; rfl
    have hle := ht.block_le
    have hms : memSizeAligned = 8192 := rfl
    unfold findFree firstFree
    simp only [ne_eq, ht.used, ht.next_fin]
    cases hf : b.free with
    | true => simp
    | false =>
      rw [if_pos ⟨Bool.false_ne_true, by omega⟩, ih hsnoc hn, hfin]
      simp

/-! ## mem_malloc -/

theorem header_cut {p m r : Nat} (hpm : p + 8 ≤ m) (hm : m < 65536) (hr : r < 65536) :
    ((newMem h m r p).setNext p m).header p = { h.header p with next := m } ∧
      ((newMem h m r p).setNext p m).header m = ⟨r, p, true⟩ ∧
      ∀ y, y + 8 ≤ p ∨ m + 8 ≤ y → ((newMem h m r p).setNext p m).header y = h.header y := by
  refine ⟨?_, ?_, fun y hy => ?_⟩
  · rw [header_setNext, header_newMem_apart (.inr hpm), Nat.mod_eq_of_lt hm]
  · rw [header_setNext_apart (.inl hpm), header_newMem, Nat.mod_eq_of_lt hr, Nat.mod_eq_of_lt (by omega)]
  · rw [header_setNext_apart, header_newMem_apart]
    · unfold Apart; omega
    · unfold Apart; omega

def taken (b : Blk) (size : Nat) : List Blk :=
  if size + 20 ≤ b.size then [⟨size, false⟩, ⟨b.size - size - 8, true⟩] else [⟨b.size, false⟩]

theorem takeMem_tiles (ht : Tiles h (pre ++ (b :: post))) (hsize : size % 4 = 0 ∧ 12 ≤ size) :
    Tiles (takeMem h (fin 8 0 pre) size) (pre ++ (taken b size ++ post)) := by
  have hov : sizeofStructMem = 8 := rfl
  have hmin : minSizeAligned = 12 := rfl
  have hle := ht.block_le
  have hbsize := ht.sizes b (by simp)
  have hpal := ht.aligned
  have hmid := ht.mid
  have hnext := ht.next
  unfold takeMem taken
  rw [ht.userSize, hov, hmin]
  by_cases hcut : size + 20 ≤ b.size
  · rw [if_pos hcut, if_pos (show size + 8 + 12 ≤ b.size from hcut)]
    dsimp only
    rw [Nat.mod_eq_of_lt (by omega : fin 8 0 pre + 8 + size < 65536), hnext]
    obtain ⟨h1, h2, h3⟩ := header_cut (h := h) (p := fin 8 0 pre) (m := fin 8 0 pre + 8 + size)
      (r := fin 8 0 pre + 8 + b.size) (by omega) (by omega) (by omega)
    have hrest : b.size - size - 8 = fin 8 0 pre + 8 + b.size - (fin 8 0 pre + 8 + size) - 8 := by omega
    rw [hrest]
    have ht : Tiles h (pre ++ ([b] ++ post)) := ht
    apply linkBack_tiles (r := fin 8 0 pre + 8 + b.size) ht rfl hsize (by omega) (by omega) hpal
    · rw [header_setUsed, h1, hmid]
      rfl
    · rw [header_setUsed_apart (.inl (by omega)), h2]
    · intro y hy
      rw [header_setUsed_apart, h3 y hy]
      unfold Apart
      omega
  · rw [if_neg hcut, if_neg (show ¬size + 8 + 12 ≤ b.size from hcut)]
    exact ht.mark 1

/-! ### What is written -/

theorem Confined.trans {h'' : Heap} {lo hi : Nat} (h1 : Confined h h' lo hi) (h2 : Confined h' h'' lo hi) :
    Confined h h'' lo hi := fun x hx => (h2 x hx).trans (h1 x hx)

theorem confined_word {a v lo hi : Nat} (hlo : lo ≤ a) (hhi : a + 2 ≤ hi) : Confined h (h.setWord a v) lo hi :=
  fun x hx => ram_setWord_ne (by omega) (by omega)

theorem confined_used {a lo hi : Nat} {u : UInt8} (hlo : lo ≤ a) (hhi : a + 8 ≤ hi) : Confined h (h.setUsed a u) lo hi :=
  fun x hx => if_neg (by omega)

theorem confined_next {a v lo hi : Nat} (hlo : lo ≤ a) (hhi : a + 8 ≤ hi) : Confined h (h.setNext a v) lo hi :=
  confined_word hlo (by omega)

theorem confined_prev {a v lo hi : Nat} (hlo : lo ≤ a) (hhi : a + 8 ≤ hi) : Confined h (h.setPrev a v) lo hi :=
  confined_word (by omega) (by omega)

theorem confined_newMem {m n p lo hi : Nat} (hlo : lo ≤ m) (hhi : m + 8 ≤ hi) : Confined h (newMem h m n p) lo hi :=
  ((confined_used hlo hhi).trans (confined_next hlo hhi)).trans (confined_prev hlo hhi)

theorem confined_linkBack {m lo hi : Nat} (hlo : lo ≤ h.next m) (hhi : h.next m + 8 ≤ hi) :
    Confined h (linkBack h m) lo hi := by
  unfold linkBack
  split
  · exact confined_prev hlo hhi
  · exact fun _ _ => rfl

theorem takeMem_confined (ht : Tiles h (pre ++ (b :: post))) (size : Nat) :
    Confined h (takeMem h (fin 8 0 pre) size) (fin 8 0 pre) (fin 8 0 pre + 8 + b.size + 8) := by
  have hov : sizeofStructMem = 8 := rfl
  have hmin : minSizeAligned = 12 := rfl
  have hle := ht.block_le
  have hnext := ht.next
  unfold takeMem
  rw [ht.userSize, hov, hmin]
  split
  · next hcut =>
    dsimp only
    rw [Nat.mod_eq_of_lt (by omega : fin 8 0 pre + 8 + size < 65536), hnext]
    obtain ⟨-, h2, -⟩ := header_cut (h := h) (p := fin 8 0 pre) (m := fin 8 0 pre + 8 + size)
      (r := fin 8 0 pre + 8 + b.size) (by omega) (by omega) (by omega)
    have hwritten : Confined h ((((newMem h (fin 8 0 pre + 8 + size) (fin 8 0 pre + 8 + b.size) (fin 8 0 pre)).setNext
        (fin 8 0 pre) (fin 8 0 pre + 8 + size))).setUsed (fin 8 0 pre) 1) (fin 8 0 pre) (fin 8 0 pre + 8 + b.size + 8) :=
      ((confined_newMem (by omega) (by omega)).trans (confined_next (by omega) (by omega))).trans
        (confined_used (by omega) (by omega))
    refine hwritten.trans (confined_linkBack ?_ ?_)
    · rw [next_eq, header_setUsed_apart (.inl (by omega)), h2]
      dsimp only
      omega
    · rw [next_eq, header_setUsed_apart (.inl (by omega)), h2]
  · exact confined_used (Nat.le_refl _) (by omega)

/-! ### The lowest free block -/

theorem taken_noAdjFree (size : Nat) (hb : b.free = true) (h : NoAdjFree (pre ++ b :: post)) :
    NoAdjFree (pre ++ (taken b size ++ post)) := by
  unfold taken
  split
  · exact noAdjFree_split h hb rfl
  · exact noAdjFree_use h rfl

@[simp] theorem linkBack_lfree (h : Heap) (m : Nat) : (linkBack h m).lfree = h.lfree := by
  unfold linkBack
  split
  · rfl
  · rfl

theorem takeMem_lfree (h : Heap) (p size : Nat) : (takeMem h p size).lfree = h.lfree := by
  unfold takeMem
  split
  · exact linkBack_lfree _ _
  · rfl

theorem Tiles.length_lt (ht : Tiles h bs) : bs.length < memSizeAligned + 1 := by
  have hlen := length_le 8 bs 0
  have hms : memSizeAligned = 8192 := rfl
  rw [ht.ends] at hlen
  omega

theorem Rep.findMem (hr : Rep h bs) (size : Nat) :
    findMem h size (memSizeAligned + 1) h.lfree = some (firstFit 8 size 0 bs) := by
  obtain ⟨xs, ys, rfl, hused, hfirst⟩ := firstFree_split 8 bs 0
  have hlen := hr.length_lt
  rw [hr.lfree, hfirst, findMem_spec hr.toTiles (by simp at hlen; omega), firstFit_used hused]

/-- A free block is the lowest one when nothing free lies below it. -/
theorem Rep.lfree_at (hr : Rep h (pre ++ (b :: post))) (hb : b.free = true) :
    fin 8 0 pre = h.lfree ↔ ∀ d ∈ pre, d.free = false := by
  rw [hr.lfree]
  constructor
  · intro heq
    rcases used_or_free pre with hused | hfree
    · exact hused
    · have hlt : firstFree 8 0 (pre ++ b :: post) = _ ∧ _ := firstFree_front hfree 0
      omega
  · intro hused
    rw [firstFree_used hused, firstFree, hb]
    rfl

theorem Tiles.setLfree (ht : Tiles h bs) (v : Nat) : Tiles (h.setLfree v) bs :=
  ⟨ht.linked, ht.ends, ht.endUsed, ht.sizes⟩

theorem adjustLfree_rep (ht : Tiles h (pre ++ (xs ++ post))) (hno : NoAdjFree (pre ++ (xs ++ post)))
    (hlow : fin 8 0 pre = h.lfree ↔ ∀ d ∈ pre, d.free = false)
    (hold : (∃ d ∈ pre, d.free = true) → h.lfree = firstFree 8 0 pre) :
    ∃ h', adjustLfree h (fin 8 0 pre) = some (h', some (fin 8 0 pre + 8)) ∧ Rep h' (pre ++ (xs ++ post)) ∧ h'.ram = h.ram := by
  have hov : sizeofStructMem = 8 := rfl
  have hlen := ht.length_lt
  unfold adjustLfree
  rw [hov]
  rcases used_or_free pre with hused | hfree
  · rw [if_pos (hlow.mpr hused), ← hlow.mpr hused,
      findFree_spec ht (by rw [List.length_append] at hlen; omega), Option.map_some]
    refine ⟨_, rfl, ⟨ht.setLfree _, hno, ?_⟩, setLfree_ram⟩
    rw [setLfree_lfree, firstFree_used hused]
  · have hne : fin 8 0 pre ≠ h.lfree := fun heq => by
      obtain ⟨d, hd, hdf⟩ := hfree
      rw [hlow.mp heq d hd] at hdf
      cases hdf
    rw [if_neg hne]
    exact ⟨h, rfl, ⟨ht, hno, by rw [hold hfree, (firstFree_front hfree 0).1]⟩, rfl⟩

theorem takeMem_rep (hr : Rep h (pre ++ (b :: post))) (hb : b.free = true) (hsize : size % 4 = 0 ∧ 12 ≤ size) :
    ∃ h', adjustLfree (takeMem h (fin 8 0 pre) size) (fin 8 0 pre) = some (h', some (fin 8 0 pre + 8)) ∧
      Rep h' (pre ++ (taken b size ++ post)) ∧ h'.ram = (takeMem h (fin 8 0 pre) size).ram := by
  have ht := takeMem_tiles hr.toTiles hsize
  have hno := taken_noAdjFree size hb hr.noAdjFree
  have hold := takeMem_lfree h (fin 8 0 pre) size
  apply adjustLfree_rep ht hno
  · rw [hold]
    exact hr.lfree_at hb
  · intro hfree
    rw [hold, hr.lfree, (firstFree_front hfree 0).1]

inductive Mallocs (h : Heap) (bs : List Blk) (size : Nat) : Heap → Option Nat → Prop
  | refused (h0 : size = 0 ∨ firstFit 8 (request size) 0 bs = none) : Mallocs h bs size h none
  | granted (h' : Heap) (pre : List Blk) (b : Blk) (post : List Blk) (hbs : bs = pre ++ (b :: post)) (h0 : size ≠ 0)
      (hfirst : firstFit 8 (request size) 0 bs = some (fin 8 0 pre)) (hb : b.free = true)
      (hfit : request size ≤ b.size) (hrep : Rep h' (pre ++ (taken b (request size) ++ post)))
      (hram : Confined h h' (fin 8 0 pre) (fin 8 0 pre + 8 + b.size + 8)) :
      Mallocs h bs size h' (some (fin 8 0 pre + 8))

theorem memMalloc_spec (hr : Rep h bs) (size : Nat) :
    ∃ h' r, memMalloc h size = some (h', r) ∧ Mallocs h bs size h' r := by
  unfold memMalloc
  by_cases h0 : size = 0
  · exact ⟨h, none, by rw [if_pos h0], .refused (.inl h0)⟩
  · rw [if_neg h0]
    dsimp only
    by_cases hbig : memSizeAligned < request size
    · refine ⟨h, none, by rw [if_pos hbig], .refused (.inr (firstFit_none.mpr fun d hd _ => ?_))⟩
      obtain ⟨l, r, rfl⟩ := List.append_of_mem hd
      have hle := hr.block_le
      have hms : memSizeAligned = 8192 := rfl
      omega
    · rw [if_neg hbig, hr.findMem]
      cases hfirst : firstFit 8 (request size) 0 bs with
      | none => exact ⟨h, none, by rw [Option.bind_some], .refused (.inr hfirst)⟩
      | some x =>
        rw [Option.bind_some]
        obtain ⟨pre, b, post, rfl, rfl, hb, hfit, -⟩ := firstFit_some hfirst
        obtain ⟨h', heq, hrep, hram⟩ := takeMem_rep hr hb (request_aligned size)
        refine ⟨h', some (fin 8 0 pre + 8), heq, .granted h' pre b post rfl h0 hfirst hb hfit hrep fun x hx => ?_⟩
        rw [hram]
        exact takeMem_confined hr.toTiles (request size) x hx

/-! ## mem_free -/

theorem absorb_confined (ht : Tiles h (pre ++ (b :: c :: post))) :
    Confined h (absorb h (fin 8 0 pre) (fin 8 0 pre + 8 + b.size)) (fin 8 0 pre)
      (fin 8 0 pre + 8 + (b.size + 8 + c.size) + 8) := by
  have ht' : Tiles h ((pre ++ [b]) ++ (c :: post)) := by simpa using ht
  have hfin : fin 8 0 (pre ++ [b]) = fin 8 0 pre + 8 + b.size := by rw [fin_append]; rfl
  have hnext := ht'.next
  rw [hfin] at hnext
  have hq : (h.setNext (fin 8 0 pre) (h.next (fin 8 0 pre + 8 + b.size))).next (fin 8 0 pre + 8 + b.size) =
      fin 8 0 pre + 8 + b.size + 8 + c.size := by
    rw [next_eq, header_setNext_apart (.inl (by omega)), ← next_eq, hnext]
  unfold absorb
  dsimp only
  rw [hq]
  exact (confined_next (Nat.le_refl _) (by omega)).trans (confined_prev (by omega) (by omega))

/-- The block `b` has taken over the free blocks `r` in front of `post'`. -/
structure Joined (h h' : Heap) (pre : List Blk) (b : Blk) (post r post' : List Blk) (n : Nat) : Prop where
  split : post = r ++ post'
  freed : ∀ d ∈ r, d.free = true
  tiles : Tiles h' (pre ++ (⟨n, true⟩ :: post'))
  size : fin 8 0 pre + 8 + n = fin 8 (fin 8 0 pre + 8 + b.size) r
  lfree : h'.lfree = h.lfree
  confined : Confined h h' (fin 8 0 pre) (fin 8 0 pre + 8 + n + 8)

theorem plugForward_spec (ht : Tiles h (pre ++ (b :: post))) (hb : b.free = true) (hl : h.lfree ≤ fin 8 0 pre)
    (hno : NoAdjFree post) :
    ∃ n r post', Joined h (plugForward h (fin 8 0 pre)) pre b post r post' n ∧ NoAdjFree post' ∧
      ∀ d ∈ post'.head?, d.free = false := by
  have hbsize := ht.sizes b (by simp)
  have hsame : (∀ d ∈ post.head?, d.free = false) →
      ∃ n r post', Joined h h pre b post r post' n ∧ NoAdjFree post' ∧ ∀ d ∈ post'.head?, d.free = false := fun hhead =>
    ⟨b.size, [], post, ⟨rfl, by simp, by rw [← hb]; exact ht, rfl, rfl, fun _ _ => rfl⟩, hno, hhead⟩
  have hafter := ht.after
  unfold plugForward
  dsimp only
  rw [ht.next]
  split
  · next hcond =>
    obtain ⟨-, hused, hend⟩ := hcond
    rw [used_iff, hafter] at hused
    cases post with
    | nil => cases hused
    | cons c post =>
      have hc : c.free = true := hused
      rw [if_neg (by omega)]
      refine ⟨b.size + 8 + c.size, [c], post, ⟨rfl, by simpa using hc, ht.absorb hb, ?_, rfl, absorb_confined ht⟩, ?_⟩
      · simp only [fin_cons, fin_nil]
        omega
      · obtain ⟨hhead, hno⟩ := noAdjFree_cons.mp hno
        refine ⟨hno, fun d hd => ?_⟩
        cases hdf : d.free with
        | false => rfl
        | true => exact absurd ⟨hc, hdf⟩ (hhead d hd)
  · next hcond =>
    apply hsame
    intro d hd
    cases post with
    | nil => cases hd
    | cons c post =>
      cases hd
      cases hdf : d.free with
      | false => rfl
      | true =>
        refine absurd ⟨by omega, ?_, ?_⟩ hcond
        · rw [used_iff, hafter]
          exact hdf
        · have ht' : Tiles h ((pre ++ [b]) ++ (d :: post)) := by simpa using ht
          have hle := ht'.block_le
          rw [fin_append, fin_cons, fin_nil] at hle
          have hms : memSizeAligned = 8192 := rfl
          omega

/-- The block `b` was taken over by the free blocks `l` behind `pre'`. -/
structure JoinedLeft (h h' : Heap) (pre : List Blk) (b : Blk) (post pre' l : List Blk) (n : Nat) : Prop where
  split : pre = pre' ++ l
  freed : ∀ d ∈ l, d.free = true
  tiles : Tiles h' (pre' ++ (⟨n, true⟩ :: post))
  size : fin 8 0 pre' + 8 + n = fin 8 0 pre + 8 + b.size
  lfree : h'.lfree = h.lfree
  confined : Confined h h' (fin 8 0 pre') (fin 8 0 pre + 8 + b.size + 8)

theorem plugBackward_spec (ht : Tiles h (pre ++ (b :: post))) (hb : b.free = true)
    (hl : h.lfree = firstFree 8 0 (pre ++ (b :: post))) (hno : NoAdjFree pre) :
    ∃ n pre' l, JoinedLeft h (plugBackward h (fin 8 0 pre)) pre b post pre' l n ∧ NoAdjFree pre' ∧
      ∀ d ∈ pre'.getLast?, d.free = false := by
  have hprev : h.prev (fin 8 0 pre) = before 8 0 0 pre := by rw [prev_eq, ht.mid]
  have hbsize := ht.sizes b (by simp)
  have hsame : (∀ d ∈ pre.getLast?, d.free = false) →
      ∃ n pre' l, JoinedLeft h h pre b post pre' l n ∧ NoAdjFree pre' ∧ ∀ d ∈ pre'.getLast?, d.free = false := fun hlast =>
    ⟨b.size, pre, [], ⟨by simp, by simp, by rw [← hb]; exact ht, rfl, rfl, fun _ _ => rfl⟩, hno, hlast⟩
  unfold plugBackward
  dsimp only
  rw [hprev]
  rcases List.eq_nil_or_concat pre with rfl | ⟨pre, c, rfl⟩
  · rw [if_neg fun hc => hc.1 rfl]
    exact hsame (by simp)
  · rw [List.concat_eq_append] at *
    have ht' : Tiles h (pre ++ (c :: b :: post)) := by simpa using ht
    have hfin : fin 8 0 (pre ++ [c]) = fin 8 0 pre + 8 + c.size := by rw [fin_append]; rfl
    have hbefore : before 8 0 0 (pre ++ [c]) = fin 8 0 pre := before_snoc 8 c pre 0 0
    rw [hbefore]
    cases hc : c.free with
    | false =>
      rw [if_neg fun hcond => by rw [ht'.used, hc] at hcond; exact absurd hcond.2 Bool.false_ne_true]
      apply hsame
      intro d hd
      simp only [List.getLast?_append_cons, List.getLast?_singleton, Option.mem_some_iff] at hd
      rw [← hd]
      exact hc
    | true =>
      have hlow : h.lfree ≤ fin 8 0 pre := by
        rw [hl, List.append_assoc]
        exact firstFree_le_at hc
      rw [if_pos ⟨by omega, (ht'.used).mpr hc⟩, if_neg (by omega)]
      have habsorb := ht'.absorb hc
      rw [← hfin] at habsorb
      refine ⟨c.size + 8 + b.size, pre, [c], ⟨rfl, by simpa using hc, habsorb, ?_, rfl, ?_⟩, hno.left, ?_⟩
      · rw [hfin]
        omega
      · have hconf := absorb_confined ht'
        rw [← hfin] at hconf
        intro x hx
        exact hconf x (by omega)
      · intro d hd
        have hadj := (noAdjFree_append.mp hno).2.2 d hd c (by simp)
        cases hdf : d.free with
        | false => rfl
        | true => exact absurd ⟨hdf, hc⟩ hadj

/-- A freed block and the free blocks `l` and `r` around it have become one. -/
structure Frees (h h' : Heap) (pre : List Blk) (b : Blk) (post pre' l r post' : List Blk) (n : Nat) : Prop where
  left : pre = pre' ++ l
  right : post = r ++ post'
  freedLeft : ∀ d ∈ l, d.free = true
  freedRight : ∀ d ∈ r, d.free = true
  rep : Rep h' (pre' ++ (⟨n, true⟩ :: post'))
  size : fin 8 0 pre' + 8 + n = fin 8 (fin 8 0 pre + 8 + b.size) r
  confined : Confined h h' (fin 8 0 pre') (fin 8 0 pre' + 8 + n + 8)

/-- The lowest free block lies before a used block or behind it. -/
theorem Rep.lfree_cases (hr : Rep h (pre ++ (b :: post))) (hb : b.free = false) :
    ((∀ d ∈ pre, d.free = false) ∧ h.lfree = firstFree 8 (fin 8 0 pre + 8 + b.size) post) ∨
      ((∃ d ∈ pre, d.free = true) ∧ h.lfree = firstFree 8 0 pre ∧ h.lfree + 8 ≤ fin 8 0 pre) := by
  rw [hr.lfree]
  rcases used_or_free pre with hused | hfree
  · left
    rw [firstFree_used hused, firstFree, hb]
    exact ⟨hused, if_neg Bool.false_ne_true⟩
  · right
    obtain ⟨heq, hlt⟩ : firstFree 8 0 (pre ++ b :: post) = _ ∧ _ := firstFree_front hfree 0
    rw [heq]
    exact ⟨hfree, rfl, hlt⟩

/-- The lowest free block once `b` is free. -/
theorem lfree_marked (hr : Rep h (pre ++ (b :: post))) (hb : b.free = false) :
    (if fin 8 0 pre < h.lfree then fin 8 0 pre else h.lfree) = firstFree 8 0 (pre ++ (⟨b.size, true⟩ :: post)) := by
  rcases hr.lfree_cases hb with ⟨hused, hlow⟩ | ⟨hfree, hlow, hlt⟩
  · have hge : fin 8 0 pre + 8 + b.size ≤ h.lfree := by
      rw [hlow]
      exact le_firstFree _
    rw [if_pos (by omega), firstFree_used hused]
    rfl
  · rw [if_neg (by omega), (firstFree_front hfree 0).1, hlow]

theorem noAdjFree_around {d : Blk} (hpre : NoAdjFree pre) (hpost : NoAdjFree post)
    (hlast : ∀ x ∈ pre.getLast?, x.free = false) (hhead : ∀ y ∈ post.head?, y.free = false) :
    NoAdjFree (pre ++ (d :: post)) := by
  refine noAdjFree_append.mpr ⟨hpre, noAdjFree_cons.mpr ⟨fun y hy hc => ?_, hpost⟩, fun x hx y _ hc => ?_⟩
  · rw [hhead y hy] at hc
    cases hc.2
  · rw [hlast x hx] at hc
    cases hc.1

theorem plugHoles_frees (ht : Tiles h (pre ++ (⟨b.size, true⟩ :: post)))
    (hl : h.lfree = firstFree 8 0 (pre ++ (⟨b.size, true⟩ :: post))) (hpre : NoAdjFree pre) (hpost : NoAdjFree post) :
    ∃ pre' l r post' n, Frees h (plugHoles h (fin 8 0 pre)) pre b post pre' l r post' n := by
  have hlow : h.lfree ≤ fin 8 0 pre := by
    rw [hl]
    exact firstFree_le_at rfl
  obtain ⟨m, r, post', hj, hpost', hhead⟩ := plugForward_spec ht rfl hlow hpost
  have hlf : (plugForward h (fin 8 0 pre)).lfree = firstFree 8 0 (pre ++ (⟨m, true⟩ :: post')) := by
    rw [hj.lfree, hl]
    exact firstFree_at rfl rfl
  obtain ⟨n, pre', l, hk, hpre', hlast⟩ := plugBackward_spec hj.tiles rfl hlf hpre
  have hsize := hk.size
  have hmsize := hj.size
  have hle : fin 8 0 pre' ≤ fin 8 0 pre := by
    rw [hk.split, fin_append]
    exact le_fin ..
  refine ⟨pre', l, r, post', n, hk.split, hj.split, hk.freed, hj.freed, ⟨hk.tiles, ?_, ?_⟩, hsize.trans hmsize, ?_⟩
  · exact noAdjFree_around hpre' hpost' hlast hhead
  · show (plugBackward (plugForward h (fin 8 0 pre)) (fin 8 0 pre)).lfree = _
    rw [hk.lfree, hlf, hk.split]
    exact firstFree_join hk.freed rfl rfl
  · intro x hx
    dsimp only at hsize
    have h1 := hj.confined x (by omega)
    have h2 := hk.confined x (by dsimp only; omega)
    exact h2.trans h1

theorem memFree_spec (hr : Rep h (pre ++ (b :: post))) (hb : b.free = false) :
    ∃ pre' l r post' n, Frees h (memFree h (some (fin 8 0 pre + 8))) pre b post pre' l r post' n := by
  have hov : sizeofStructMem = 8 := rfl
  have hms : memSizeAligned = 8192 := rfl
  have hle := hr.block_le
  have hbsize := hr.sizes b (by simp)
  have hmark := hr.mark 0
  have hlow := lfree_marked hr hb
  unfold memFree
  dsimp only
  rw [if_neg (by omega), hov, Nat.add_sub_cancel, setUsed_lfree]
  have hno := hr.noAdjFree
  have hparts := noAdjFree_append.mp hno
  have htiles : Tiles (if fin 8 0 pre < h.lfree then (h.setUsed (fin 8 0 pre) 0).setLfree (fin 8 0 pre)
      else h.setUsed (fin 8 0 pre) 0) (pre ++ (⟨b.size, true⟩ :: post)) := by
    split
    · exact hmark.setLfree _
    · exact hmark
  have hram : Confined h (if fin 8 0 pre < h.lfree then (h.setUsed (fin 8 0 pre) 0).setLfree (fin 8 0 pre)
      else h.setUsed (fin 8 0 pre) 0) (fin 8 0 pre) (fin 8 0 pre + 8) := by
    have hused : Confined h (h.setUsed (fin 8 0 pre) 0) (fin 8 0 pre) (fin 8 0 pre + 8) :=
      confined_used (Nat.le_refl _) (Nat.le_refl _)
    split
    · exact hused
    · exact hused
  obtain ⟨pre', l, r, post', n, hf⟩ := plugHoles_frees htiles (by
    rw [← hlow]
    split
    · rfl
    · rfl) hparts.1 (noAdjFree_cons.mp hparts.2.1).2
  refine ⟨pre', l, r, post', n, hf.left, hf.right, hf.freedLeft, hf.freedRight, hf.rep, hf.size, fun x hx => ?_⟩
  have hsize := hf.size
  have hle' : fin 8 0 pre' ≤ fin 8 0 pre := by
    rw [hf.left, fin_append]
    exact le_fin ..
  have hge : fin 8 0 pre + 8 + b.size ≤ fin 8 (fin 8 0 pre + 8 + b.size) r := le_fin ..
  rw [hf.confined x hx, hram x (by omega)]

/-! ## mem_trim -/

/-- What the headers of a cut leave alone: everything but the three headers. -/
theorem cut_ram {p m r x : Nat} (hpm : p + 8 ≤ m) (hm : m < 65536) (hr : r < 65536) (hxp : x < p ∨ p + 8 ≤ x)
    (hxm : x < m ∨ m + 8 ≤ x) (hxr : x < r ∨ r + 8 ≤ x) :
    (linkBack ((newMem h m r p).setNext p m) m).ram x = h.ram x := by
  obtain ⟨-, h2, -⟩ := header_cut (h := h) hpm hm hr
  have hnext : ((newMem h m r p).setNext p m).next m = r := by rw [next_eq, h2]
  have hlink : Confined ((newMem h m r p).setNext p m) (linkBack ((newMem h m r p).setNext p m) m) r (r + 8) :=
    confined_linkBack (Nat.le_of_eq hnext.symm) (by rw [hnext])
  have hset : Confined (newMem h m r p) ((newMem h m r p).setNext p m) p (p + 8) :=
    confined_next (Nat.le_refl _) (Nat.le_refl _)
  have hnew : Confined h (newMem h m r p) m (m + 8) := confined_newMem (Nat.le_refl _) (Nat.le_refl _)
  rw [hlink x hxr, hset x hxp, hnew x hxm]

/-- The free end of a block is the lowest free block, or the one before stays it. -/
theorem lfree_cut {n m : Nat} (hr : Rep h (pre ++ (b :: post))) (hb : b.free = false) (hn : n < b.size) :
    (if fin 8 0 pre + 8 + n < h.lfree then fin 8 0 pre + 8 + n else h.lfree) =
      firstFree 8 0 (pre ++ ([⟨n, false⟩, ⟨m, true⟩] ++ ys)) := by
  rcases hr.lfree_cases hb with ⟨hused, hlow⟩ | ⟨hfree, hlow, hlt⟩
  · have hge : fin 8 0 pre + 8 + b.size ≤ h.lfree := by
      rw [hlow]
      exact le_firstFree _
    rw [if_pos (by omega), firstFree_used hused]
    rfl
  · rw [if_neg (by omega), (firstFree_front hfree 0).1, hlow]

theorem noAdjFree_cut {n m : Nat} (hpre : NoAdjFree pre) (hpost : NoAdjFree post)
    (hhead : ∀ y ∈ post.head?, y.free = false) : NoAdjFree (pre ++ ([⟨n, false⟩, ⟨m, true⟩] ++ post)) := by
  have hrest : NoAdjFree ([] ++ (⟨m, true⟩ :: post)) := noAdjFree_around .nil hpost (by simp) hhead
  refine noAdjFree_append.mpr ⟨hpre, noAdjFree_cons.mpr ⟨fun y _ hc => ?_, hrest⟩, fun x _ y hy hc => ?_⟩
  · cases hc.1
  · cases hy
    cases hc.2

/-- The end of `b` and the free blocks `r` behind it have become one block. -/
structure Cuts (h h' : Heap) (pre : List Blk) (b : Blk) (post r post' : List Blk) (n m : Nat) : Prop where
  split : post = r ++ post'
  freed : ∀ d ∈ r, d.free = true
  rep : Rep h' (pre ++ ([⟨n, false⟩, ⟨m, true⟩] ++ post'))
  size : fin 8 0 pre + 8 + n + 8 + m = fin 8 (fin 8 0 pre + 8 + b.size) r
  ram : ∀ x, x < fin 8 0 pre ∨ fin 8 0 pre + 8 ≤ x →
    x < fin 8 0 pre + 8 + n ∨ fin 8 (fin 8 0 pre + 8 + b.size) r + 8 ≤ x → h'.ram x = h.ram x

/-- The headers written by a cut: the free end begins at `m` and reaches to `e`. -/
def cutAt (h : Heap) (p m e v : Nat) : Heap := linkBack ((newMem (h.setLfree v) m e p).setNext p m) m

theorem cutAt_cuts {n e v : Nat} {r post' : List Blk} (hr : Rep h (pre ++ (b :: post))) (hb : b.free = false)
    (hsplit : post = r ++ post') (hfreed : ∀ d ∈ r, d.free = true) (hno : NoAdjFree post')
    (hhead : ∀ y ∈ post'.head?, y.free = false) (hn : n % 4 = 0 ∧ 12 ≤ n) (hlt : n < b.size)
    (he : fin 8 (fin 8 0 pre + 8 + b.size) r = e) (hroom : fin 8 0 pre + 8 + n + 20 ≤ e)
    (hv : v = if fin 8 0 pre + 8 + n < h.lfree then fin 8 0 pre + 8 + n else h.lfree) :
    ∃ m, Cuts h (cutAt h (fin 8 0 pre) (fin 8 0 pre + 8 + n) e v) pre b post r post' n m := by
  subst hsplit
  have ht : Tiles (h.setLfree v) (pre ++ ((b :: r) ++ post')) := hr.setLfree v
  have hmid := hr.mid
  have hpal := hr.aligned
  have hle : e ≤ 8192 := by
    rw [← he]
    exact ht.mid_le
  have heal : e % 4 = 0 := by
    rw [← he]
    have hbal := (hr.sizes b (by simp)).1
    have hral : ∀ d ∈ r, d.size % 4 = 0 := fun d hd => (hr.sizes d (by simp [hd])).1
    exact fin_aligned hral (by omega)
  obtain ⟨h1, h2, h3⟩ := header_cut (h := h.setLfree v) (p := fin 8 0 pre) (m := fin 8 0 pre + 8 + n) (r := e)
    (by omega) (by omega) (by omega)
  have htiles := linkBack_tiles ht he hn hroom heal hpal (by
    rw [h1, setLfree_header, hmid, hb]) h2 h3
  refine ⟨e - (fin 8 0 pre + 8 + n) - 8, rfl, hfreed, ⟨htiles, ?_, ?_⟩, ?_, ?_⟩
  · exact noAdjFree_cut hr.noAdjFree.left hno hhead
  · rw [cutAt, linkBack_lfree]
    show v = _
    rw [hv]
    exact lfree_cut hr hb hlt
  · rw [he]
    omega
  · intro x hxp hx
    rw [he] at hx
    exact cut_ram (by omega) (by omega) (by omega) hxp (by omega) (by omega)

/-- What `mem_trim` returns for the payload of `b`, and what becomes of the heap. -/
inductive Trims (h : Heap) (pre : List Blk) (b : Blk) (post : List Blk) (newsize : Nat) : Heap → Option Nat → Prop
  | refused (hlt : b.size < request newsize) : Trims h pre b post newsize h none
  | kept (hle : request newsize ≤ b.size) : Trims h pre b post newsize h (some (fin 8 0 pre + 8))
  | cut (h' : Heap) (r post' : List Blk) (m : Nat) (hlt : request newsize < b.size)
      (hcut : Cuts h h' pre b post r post' (request newsize) m) :
      Trims h pre b post newsize h' (some (fin 8 0 pre + 8))

/-- The free block `c` behind moves down to the new end. -/
theorem cutAt_onto {c : Blk} {n : Nat} (hr : Rep h (pre ++ (b :: c :: post))) (hb : b.free = false) (hc : c.free = true)
    (hn : n % 4 = 0 ∧ 12 ≤ n) (hlt : n < b.size) :
    ∃ m, Cuts h (cutAt h (fin 8 0 pre) (fin 8 0 pre + 8 + n) (h.next (fin 8 0 pre + 8 + b.size))
      (if h.lfree = fin 8 0 pre + 8 + b.size then fin 8 0 pre + 8 + n else h.lfree)) pre b (c :: post) [c] post n m := by
  have hle := hr.block_le
  have hcsize := hr.sizes c (by simp)
  have ht : Tiles h ((pre ++ [b]) ++ (c :: post)) := by simpa using hr.toTiles
  have hfin : fin 8 0 (pre ++ [b]) = fin 8 0 pre + 8 + b.size := by rw [fin_append]; rfl
  have hnext := ht.next
  rw [hfin] at hnext
  have hpost : NoAdjFree (c :: post) := (noAdjFree_cons.mp (noAdjFree_append.mp hr.noAdjFree).2.1).2
  obtain ⟨hhead, hno⟩ := noAdjFree_cons.mp hpost
  have hlow : (if h.lfree = fin 8 0 pre + 8 + b.size then fin 8 0 pre + 8 + n else h.lfree) =
      if fin 8 0 pre + 8 + n < h.lfree then fin 8 0 pre + 8 + n else h.lfree := by
    rcases hr.lfree_cases hb with ⟨-, hlow⟩ | ⟨-, -, hlt⟩
    · rw [firstFree, hc, if_pos rfl] at hlow
      rw [if_pos hlow, if_pos (by omega)]
    · rw [if_neg (by omega), if_neg (by omega)]
  have hused : ∀ y ∈ post.head?, y.free = false := by
    intro y hy
    cases hyf : y.free with
    | false => rfl
    | true => exact absurd ⟨hc, hyf⟩ (hhead y hy)
  rw [hnext]
  exact cutAt_cuts (r := [c]) hr hb rfl (by simpa using hc) hno hused hn hlt rfl (by omega) hlow

/-- The end of the block becomes a free block of its own. -/
theorem cutAt_off {n : Nat} (hr : Rep h (pre ++ (b :: post))) (hb : b.free = false)
    (hhead : ∀ y ∈ post.head?, y.free = false) (hn : n % 4 = 0 ∧ 12 ≤ n) (hroom : n + 8 + 12 ≤ b.size) :
    ∃ m, Cuts h (cutAt h (fin 8 0 pre) (fin 8 0 pre + 8 + n) (fin 8 0 pre + 8 + b.size)
      (if fin 8 0 pre + 8 + n < h.lfree then fin 8 0 pre + 8 + n else h.lfree)) pre b post [] post n m := by
  have hpost : NoAdjFree post := (noAdjFree_cons.mp (noAdjFree_append.mp hr.noAdjFree).2.1).2
  exact cutAt_cuts (r := []) hr hb rfl (by simp) hpost hhead hn (by omega) rfl (by omega) rfl

theorem memTrim_spec (hr : Rep h (pre ++ (b :: post))) (hb : b.free = false) (newsize : Nat) :
    Trims h pre b post newsize (memTrim h (fin 8 0 pre + 8) newsize).1 (memTrim h (fin 8 0 pre + 8) newsize).2 := by
  have hov : sizeofStructMem = 8 := rfl
  have hms : memSizeAligned = 8192 := rfl
  have hmin : minSizeAligned = 12 := rfl
  have hle := hr.block_le
  have hbsize := hr.sizes b (by simp)
  have hn := request_aligned newsize
  have hsize : (h.next (fin 8 0 pre) + 65536 - fin 8 0 pre - 8) % 65536 = b.size := by
    rw [hr.next]
    omega
  unfold memTrim
  dsimp only
  rw [hov, hmin, Nat.add_sub_cancel, hsize, hr.next]
  by_cases hbig : memSizeAligned < request newsize
  · rw [if_pos hbig]
    exact .refused (by omega)
  rw [if_neg hbig, if_neg (show ¬memSizeAligned ≤ fin 8 0 pre + 8 by omega)]
  by_cases hlong : b.size < request newsize
  · rw [if_pos hlong]
    exact .refused hlong
  rw [if_neg hlong]
  by_cases hsame : request newsize = b.size
  · rw [if_pos hsame]
    exact .kept (Nat.le_of_eq hsame)
  rw [if_neg hsame, Nat.mod_eq_of_lt (by omega : fin 8 0 pre + 8 + request newsize < 65536)]
  have hset : ∀ (c : Prop) [Decidable c] (x : Nat),
      (if c then h.setLfree x else h) = h.setLfree (if c then x else h.lfree) := by
    intro c _ x
    split
    · rfl
    · rfl
  simp only [hset]
  have hafter := hr.after
  by_cases hused : h.used (fin 8 0 pre + 8 + b.size) = 0
  · rw [if_pos hused]
    rw [used_iff, hafter] at hused
    cases post with
    | nil => cases hused
    | cons c post =>
      obtain ⟨m, hcut⟩ := cutAt_onto hr hb hused hn (by omega)
      exact .cut _ [c] post m (by omega) hcut
  · rw [if_neg hused]
    by_cases hroom : request newsize + 8 + 12 ≤ b.size
    · have hhead : ∀ y ∈ post.head?, y.free = false := by
        intro y hy
        rw [used_iff, hafter, hy] at hused
        cases hyf : y.free with
        | false => rfl
        | true => exact absurd hyf hused
      obtain ⟨m, hcut⟩ := cutAt_off hr hb hhead hn hroom
      have hnext : ∀ v, (h.setLfree v).next (fin 8 0 pre) = fin 8 0 pre + 8 + b.size := fun _ => hr.next
      rw [if_pos hroom, hnext]
      exact .cut _ [] post m (by omega) hcut
    · rw [if_neg hroom]
      exact .kept (by omega)

end

end SerialNet.Mem
