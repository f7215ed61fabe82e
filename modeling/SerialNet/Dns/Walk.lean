import SerialNet.Dns.Match

/-!
# How far the comparison reads

`_DnsCompareName` follows the lengths of the labels and stops at the first byte
that differs from the configured name, at a pointer or at a zero length. It
stays inside the message exactly when one of these comes before the end.
-/

namespace SerialNet.Dns

/-- From the byte `p` of the name's memory and `n` bytes before the end of a label,
the walk stops in `q`; `equal` is what it finds. -/
inductive Stops (my : Mem) : Nat → Nat → List UInt8 → Bool → Prop
  | differs {p n b q} : toUpper (my p) ≠ toUpper b → Stops my p (n + 1) (b :: q) false
  | same {p n b q equal} : toUpper (my p) = toUpper b → Stops my (p + 1) n q equal → Stops my p (n + 1) (b :: q) equal
  | zero {p q equal} : (equal = true ↔ my p = 0) → Stops my p 0 (0 :: q) equal
  | pointer {p b q equal} : isPointer b → (equal = true ↔ my p = 0) → Stops my p 0 (b :: q) equal
  | label {p b q equal} : b ≠ 0 → ¬isPointer b → Stops my (p + 1) b.toNat q equal → Stops my p 0 (b :: q) equal

/-- The same from the first label on. A pointer there has the byte before the name tested. -/
def StopsFirst (my : Mem) : List UInt8 → Bool → Prop
  | [], _ => False
  | b :: q, equal =>
    (isPointer b ∧ (equal = true ↔ my (nameAt - 1) = 0)) ∨ (¬isPointer b ∧ Stops my nameAt b.toNat q equal)

/-- The reads of the question lie within `ql` bytes behind the header. -/
def Within (ql : Nat) (s : Cmp) : Prop := ∀ a ∈ s.queryReads, a < headerSize + ql

/-- The walk has come to an end within the question, with that result. -/
def Ends (ql : Nat) (o : Option (Int × Cmp)) (equal : Bool) : Prop :=
  ∃ ret s, o = some (ret, s) ∧ (equal = true ↔ ret = 0) ∧ Within ql s

section
variable {my query : Mem} {ql fuel n p i : Nat} {s s' : Cmp} {ret : Int} {equal : Bool}

theorem ends_some : Ends ql (some (ret, s)) equal ↔ (equal = true ↔ ret = 0) ∧ Within ql s := by
  constructor
  · rintro ⟨_, _, he, h⟩
    cases he
    exact h
  · exact fun h => ⟨_, _, rfl, h⟩

theorem within_readQuery {a : Nat} : Within ql (s.readQuery a) ↔ a < headerSize + ql ∧ Within ql s := by
  simp only [Within, Cmp.readQuery, List.forall_mem_cons]

theorem within_enter : Within ql s.enter ↔ s.query < headerSize + ql ∧ Within ql s := within_readQuery (a := s.query)

theorem within_leave : Within ql s.leave ↔ s.query < headerSize + ql ∧ Within ql s := within_readQuery (a := s.query)

theorem within_advance : Within ql s.advance ↔ s.query < headerSize + ql ∧ Within ql s :=
  within_readQuery (s := s.readMy s.my) (a := s.query)

theorem ends_compareEnd : Ends ql (some (compareEnd my s)) equal ↔ (equal = true ↔ my (s.my - 1) = 0) ∧ Within ql s := by
  refine (@ends_some ql (compareEnd my s).2 (compareEnd my s).1 equal).trans (and_congr_left fun _ => ?_)
  refine iff_congr Iff.rfl ?_
  unfold compareEnd
  dsimp only
  split
  · rename_i h
    exact iff_of_true rfl h
  · rename_i h
    exact iff_of_false (by decide) h

theorem within_of_compareFrom (hw : Within ql s') (hl : ∀ s, compareLabels my query fuel s = some (ret, s') → Within ql s)
    (n : Nat) (s : Cmp) (h : compareFrom my query fuel n s = some (ret, s')) : Within ql s := by
  induction n generalizing s with
  | zero =>
    rw [compareFrom_zero] at h
    split at h
    · exact (within_leave.mp (hl _ h)).2
    · cases h
      exact (within_leave.mp hw).2
  | succ n ih =>
    rw [compareFrom_succ] at h
    split at h
    · cases h
      exact (within_readQuery.mp hw).2
    · exact (within_advance.mp (ih _ h)).2

theorem within_of_compareLabels (hw : Within ql s') (fuel : Nat) (s : Cmp)
    (h : compareLabels my query fuel s = some (ret, s')) : Within ql s := by
  induction fuel generalizing s with
  | zero => cases h
  | succ fuel ih =>
    rw [compareLabels_succ] at h
    split at h
    · cases h
      exact (within_enter.mp hw).2
    · exact (within_enter.mp (within_of_compareFrom hw ih _ _ h)).2

theorem Ends.within_compareFrom (h : Ends ql (compareFrom my query fuel n s) equal) : Within ql s := by
  obtain ⟨ret, s', he, -, hw⟩ := h
  exact within_of_compareFrom hw (within_of_compareLabels hw fuel) n s he

theorem Ends.within_compareLabels (h : Ends ql (compareLabels my query fuel s) equal) : Within ql s := by
  obtain ⟨ret, s', he, -, hw⟩ := h
  exact within_of_compareLabels hw fuel s he

variable {Q : List UInt8} (hm : ∀ k (h : k < Q.length), query (headerSize + k) = Q[k])

theorem stops_cons {b : UInt8} {q : List UInt8} : Stops my p (n + 1) (b :: q) equal ↔
    (toUpper (my p) ≠ toUpper b ∧ equal = false) ∨ (toUpper (my p) = toUpper b ∧ Stops my (p + 1) n q equal) := by
  constructor
  · intro h
    cases h with
    | differs h => exact .inl ⟨h, rfl⟩
    | same hb h => exact .inr ⟨hb, h⟩
  · rintro (⟨hb, rfl⟩ | ⟨hb, h⟩)
    · exact .differs hb
    · exact .same hb h

theorem stops_zero {b : UInt8} {q : List UInt8} : Stops my p 0 (b :: q) equal ↔
    ((b = 0 ∨ isPointer b) ∧ (equal = true ↔ my p = 0)) ∨ (b ≠ 0 ∧ ¬isPointer b ∧ Stops my (p + 1) b.toNat q equal) := by
  constructor
  · intro h
    cases h with
    | zero h => exact .inl ⟨.inl rfl, h⟩
    | pointer hp h => exact .inl ⟨.inr hp, h⟩
    | label h0 hp h => exact .inr ⟨h0, hp, h⟩
  · rintro (⟨rfl | hp, h⟩ | ⟨h0, hp, h⟩)
    · exact .zero h
    · exact .pointer hp h
    · exact .label h0 hp h

theorem not_stops_nil : ¬Stops my p n [] equal := nofun

include hm

theorem ends_label (hend : ∀ {p i : Nat} {s : Cmp}, s.my = p → s.query = headerSize + i → Within Q.length s →
      Q.length ≤ i + fuel → (Ends Q.length (compareFrom my query fuel 0 s) equal ↔ Stops my p 0 (Q.drop i) equal))
    (n : Nat) {p i : Nat} {s : Cmp} (hs : s.my = p) (hq : s.query = headerSize + i) (hw : Within Q.length s)
    (hf : Q.length ≤ i + fuel) : Ends Q.length (compareFrom my query fuel n s) equal ↔ Stops my p n (Q.drop i) equal := by
  induction n generalizing p i s with
  | zero => exact hend hs hq hw hf
  | succ n ih =>
    rw [compareFrom_succ]
    by_cases hi : i < Q.length
    · rw [drop_of_lt hi, stops_cons, hs, hq, hm i hi]
      by_cases hab : toUpper (my p) = toUpper Q[i]
      · rw [if_neg (not_not_intro hab)]
        have hadv : Within Q.length s.advance := within_advance.mpr ⟨by omega, hw⟩
        have ih := @ih (p + 1) (i + 1) s.advance (by rw [← hs]; rfl) (by rw [← Nat.add_assoc, ← hq]; rfl) hadv (by omega)
        rw [ih]
        exact ⟨fun h => .inr ⟨hab, h⟩, fun h => (h.resolve_left fun h => h.1 hab).2⟩
      · have hread : Within Q.length ((s.readMy p).readQuery (headerSize + i)) := within_readQuery.mpr ⟨by omega, hw⟩
        rw [if_pos hab, ends_some]
        constructor
        · rintro ⟨h, -⟩
          exact .inl ⟨hab, by simpa using h⟩
        · rintro (⟨-, rfl⟩ | ⟨he, -⟩)
          · exact ⟨by decide, hread⟩
          · exact absurd he hab
    · rw [List.drop_of_length_le (Nat.not_lt.mp hi)]
      refine iff_of_false (fun h => hi ?_) not_stops_nil
      split at h
      · have := (within_readQuery.mp (ends_some.mp h).2).1
        omega
      · have := (within_advance.mp h.within_compareFrom).1
        omega

theorem ends_compareFrom (fuel n : Nat) {p i : Nat} {s : Cmp} (hs : s.my = p) (hq : s.query = headerSize + i)
    (hw : Within Q.length s) (hf : Q.length ≤ i + fuel) :
    Ends Q.length (compareFrom my query fuel n s) equal ↔ Stops my p n (Q.drop i) equal := by
  induction fuel generalizing n p i s with
  | zero =>
    refine ends_label hm (fun {p i s} hs hq hw hf => ?_) n hs hq hw hf
    rw [List.drop_of_length_le (show Q.length ≤ i from hf)]
    refine iff_of_false (fun h => ?_) not_stops_nil
    rw [compareFrom_zero] at h
    split at h
    · obtain ⟨_, _, he, _⟩ := h
      cases he
    · have := (within_leave.mp (ends_compareEnd.mp h).2).1
      omega
  | succ fuel ihf =>
    refine ends_label hm (fun {p i s} hs hq hw hf => ?_) n hs hq hw hf
    rw [compareFrom_zero]
    by_cases hi : i < Q.length
    · have hleave : Within Q.length s.leave := within_leave.mpr ⟨by omega, hw⟩
      have hlast : s.leave.my - 1 = p := by rw [← hs]; rfl
      rw [drop_of_lt hi, stops_zero, hq, hm i hi]
      by_cases h0 : Q[i] = 0
      · rw [if_neg (not_not_intro h0), ends_compareEnd, hlast]
        exact ⟨fun h => .inl ⟨.inl h0, h.1⟩, fun h => ⟨(h.resolve_right fun h => h.1 h0).2, hleave⟩⟩
      · have hlq : query s.leave.query = Q[i] := by rw [← hm i hi, ← hq]; rfl
        rw [if_pos h0, compareLabels_succ, hlq]
        have henter : Within Q.length s.leave.enter := within_enter.mpr ⟨by rw [show s.leave.query = s.query from rfl]; omega, hleave⟩
        by_cases hp : isPointer Q[i]
        · rw [if_pos hp, ends_compareEnd, show s.leave.enter.my = s.leave.my from rfl, hlast]
          exact ⟨fun h => .inl ⟨.inr hp, h.1⟩, fun h => ⟨(h.resolve_right fun h => h.2.1 hp).2, henter⟩⟩
        · rw [if_neg hp, @ihf _ (p + 1) (i + 1) s.leave.enter (by rw [← hs]; rfl) (by rw [← Nat.add_assoc, ← hq]; rfl)
            henter (by omega)]
          exact ⟨fun h => .inr ⟨h0, hp, h⟩, fun h => (h.resolve_left fun h => h.1.elim h0 hp).2.2⟩
    · rw [List.drop_of_length_le (Nat.not_lt.mp hi)]
      refine iff_of_false (fun h => hi ?_) not_stops_nil
      split at h
      · have := (within_leave.mp h.within_compareLabels).1
        omega
      · have := (within_leave.mp (ends_compareEnd.mp h).2).1
        omega

end

end SerialNet.Dns
