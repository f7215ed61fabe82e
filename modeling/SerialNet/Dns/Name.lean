import SerialNet.Dns.Server

/-!
# Which names the DNS server answers

A question matches when it is an uncompressed sequence of labels whose dotted
form is the configured name. The comparison walks the name and the labels in
step and looks at no separator, so it is right on a question only when it meets
a first difference inside both, or when the question matches and the name leaves
room for its terminator.
-/

namespace SerialNet.Dns

def dot : UInt8 := 46

def encodeLabels : List (List UInt8) → List UInt8
  | [] => []
  | l :: ls => UInt8.ofNat l.length :: (l ++ encodeLabels ls)

/-- `dottedFrom l ls`: the label `l` and those behind it, with dots between. -/
def dottedFrom : List UInt8 → List (List UInt8) → List UInt8
  | l, [] => l
  | l, l' :: ls => l ++ dot :: dottedFrom l' ls

def dotted : List (List UInt8) → List UInt8
  | [] => []
  | l :: ls => dottedFrom l ls

/-- A label as it stands between the dots of a name. -/
structure IsLabel (l : List UInt8) : Prop where
  nonempty : l ≠ []
  short : l.length ≤ 63
  noDot : dot ∉ l

theorem IsLabel.toNat_length {l : List UInt8} (h : IsLabel l) : (UInt8.ofNat l.length).toNat = l.length := by
  have := h.short
  rw [UInt8.toNat_ofNat']
  omega

theorem IsLabel.not_pointer {l : List UInt8} (h : IsLabel l) : ¬isPointer (UInt8.ofNat l.length) := by
  have hall : ∀ n : Fin 64, ¬isPointer (UInt8.ofNat n) := by decide
  exact hall ⟨l.length, Nat.lt_succ_of_le h.short⟩

def SameName (a b : List UInt8) : Prop := a.map toUpper = b.map toUpper

def Matches (name : CString) (msg : List UInt8) : Prop :=
  ∃ labels, (∀ l ∈ labels, IsLabel l) ∧ encodeLabels labels ++ [0] <+: msg.drop headerSize ∧
    SameName (dotted labels) name.chars

/-- The name field `d` and the question `q` differ, `n` bytes before the end of
a label of the question. The byte of the name at the end of a label stands for
any separator. -/
inductive Differs : Nat → List UInt8 → List UInt8 → Prop
  | byte {n a b d q} : toUpper a ≠ toUpper b → Differs (n + 1) (a :: d) (b :: q)
  | same {n a b d q} : toUpper a = toUpper b → Differs n d q → Differs (n + 1) (a :: d) (b :: q)
  | longer {a d q} : a ≠ 0 → Differs 0 (a :: d) (0 :: q)
  | pointer {a b d q} : a ≠ 0 → isPointer b → Differs 0 (a :: d) (b :: q)
  | label {a b d q} : b ≠ 0 → ¬isPointer b → Differs b.toNat d q → Differs 0 (a :: d) (b :: q)

/-- The same from the first label on. -/
def DiffersFirst (d : List UInt8) : List UInt8 → Prop
  | [] => False
  | n :: q => ¬isPointer n ∧ Differs n.toNat d q

/-! ## The walk -/

/-- The reads lie in a name field of `dl` bytes and in a question that ends
`ql` bytes behind the header. -/
def Inside (dl ql : Nat) (s : Cmp) : Prop :=
  (∀ a ∈ s.myReads, nameAt ≤ a ∧ a < nameAt + dl) ∧ ∀ a ∈ s.queryReads, a < headerSize + ql

theorem inside_readMy {dl ql a : Nat} {s : Cmp} :
    Inside dl ql (s.readMy a) ↔ (nameAt ≤ a ∧ a < nameAt + dl) ∧ Inside dl ql s := by
  simp only [Inside, Cmp.readMy, List.forall_mem_cons, and_assoc]

theorem inside_readQuery {dl ql a : Nat} {s : Cmp} :
    Inside dl ql (s.readQuery a) ↔ a < headerSize + ql ∧ Inside dl ql s := by
  simp only [Inside, Cmp.readQuery, List.forall_mem_cons]
  exact and_left_comm

structure PointsAt (p i : Nat) (s : Cmp) : Prop where
  my : s.my = nameAt + p
  query : s.query = headerSize + i

/-- The walk with `n` bytes of a label left. -/
def compareFrom (my query : Mem) (fuel n : Nat) (s : Cmp) : Option (Int × Cmp) :=
  match compareBytes my query n s with
  | (false, s) => some (1, s)
  | (true, s) =>
    let s := { s with my := s.my + 1 }
    let s := s.readQuery s.query
    if query s.query ≠ 0 then compareLabels my query fuel s else some (compareEnd my s)

def Cmp.enter (s : Cmp) : Cmp := { s.readQuery s.query with query := s.query + 1 }

def Cmp.leave (s : Cmp) : Cmp := { s.readQuery s.query with my := s.my + 1 }

def Cmp.advance (s : Cmp) : Cmp :=
  { (s.readMy s.my).readQuery s.query with my := s.my + 1, query := s.query + 1 }

theorem compareLabels_succ (my query : Mem) (fuel : Nat) (s : Cmp) :
    compareLabels my query (fuel + 1) s =
      if isPointer (query s.query) then some (compareEnd my s.enter)
      else compareFrom my query fuel (query s.query).toNat s.enter := rfl

theorem compareFrom_zero (my query : Mem) (fuel : Nat) (s : Cmp) :
    compareFrom my query fuel 0 s =
      if query s.query ≠ 0 then compareLabels my query fuel s.leave else some (compareEnd my s.leave) := rfl

theorem compareFrom_succ (my query : Mem) (fuel n : Nat) (s : Cmp) :
    compareFrom my query fuel (n + 1) s =
      if toUpper (my s.my) ≠ toUpper (query s.query) then some (1, (s.readMy s.my).readQuery s.query)
      else compareFrom my query fuel n s.advance := by
  unfold compareFrom
  rw [compareBytes]
  by_cases h : toUpper (my s.my) ≠ toUpper (query s.query)
  · simp [h, Cmp.readMy, Cmp.readQuery]
  · simp [h, Cmp.readMy, Cmp.readQuery, Cmp.advance]

section
variable {dl ql : Nat}

theorem inside_enter {s : Cmp} : Inside dl ql s.enter ↔ s.query < headerSize + ql ∧ Inside dl ql s :=
  inside_readQuery (s := s) (a := s.query)

theorem inside_leave {s : Cmp} : Inside dl ql s.leave ↔ s.query < headerSize + ql ∧ Inside dl ql s :=
  inside_readQuery (s := s) (a := s.query)

theorem inside_advance {s : Cmp} :
    Inside dl ql s.advance ↔
      s.query < headerSize + ql ∧ (nameAt ≤ s.my ∧ s.my < nameAt + dl) ∧ Inside dl ql s := by
  have : Inside dl ql s.advance ↔ Inside dl ql ((s.readMy s.my).readQuery s.query) := Iff.rfl
  rw [this, inside_readQuery, inside_readMy]

theorem inside_compareEnd {s : Cmp} (my : Mem) :
    Inside dl ql (compareEnd my s).2 ↔
      (nameAt ≤ s.my - 1 ∧ s.my - 1 < nameAt + dl) ∧ Inside dl ql s :=
  inside_readMy (s := s) (a := s.my - 1)

/-- A label's walk that stays inside began inside, if the walks behind it do. -/
theorem inside_of_compareFrom {my query : Mem} {fuel : Nat} {ret : Int} {s' : Cmp} (hin : Inside dl ql s')
    (hl : ∀ s, compareLabels my query fuel s = some (ret, s') → Inside dl ql s) (n : Nat) (s : Cmp)
    (h : compareFrom my query fuel n s = some (ret, s')) : Inside dl ql s := by
  induction n generalizing s with
  | zero =>
    rw [compareFrom_zero] at h
    split at h
    · exact (inside_leave.mp (hl _ h)).2
    · cases h
      exact (inside_leave.mp ((inside_compareEnd my).mp hin).2).2
  | succ n ih =>
    rw [compareFrom_succ] at h
    split at h
    · cases h
      exact (inside_readMy.mp (inside_readQuery.mp hin).2).2
    · exact (inside_advance.mp (ih _ h)).2.2

theorem inside_compareLabels {my query : Mem} {ret : Int} {s' : Cmp} (hin : Inside dl ql s') (fuel : Nat)
    (s : Cmp) (h : compareLabels my query fuel s = some (ret, s')) : Inside dl ql s := by
  induction fuel generalizing s with
  | zero => cases h
  | succ fuel ih =>
    rw [compareLabels_succ] at h
    split at h
    · cases h
      exact (inside_enter.mp ((inside_compareEnd my).mp hin).2).2
    · exact (inside_enter.mp (inside_of_compareFrom hin ih _ _ h)).2

theorem inside_compareFrom {my query : Mem} {fuel n : Nat} {ret : Int} {s s' : Cmp} (hin : Inside dl ql s')
    (h : compareFrom my query fuel n s = some (ret, s')) : Inside dl ql s :=
  inside_of_compareFrom hin (inside_compareLabels hin fuel) n s h

end

/-! ## The walk and the two byte strings -/

/-- The walk has ended with a difference, having read only inside. -/
def Refuses (dl ql : Nat) (o : Option (Int × Cmp)) : Prop :=
  ∃ ret s, o = some (ret, s) ∧ ret ≠ 0 ∧ Inside dl ql s

theorem refuses_some {dl ql : Nat} {ret : Int} {s : Cmp} :
    Refuses dl ql (some (ret, s)) ↔ ret ≠ 0 ∧ Inside dl ql s := by
  constructor
  · rintro ⟨_, _, he, h⟩
    cases he
    exact h
  · rintro ⟨hr, hi⟩
    exact ⟨_, _, rfl, hr, hi⟩

/-- The memories hold the name field `D`, and the question `Q` behind the
header. -/
structure Lies (D Q : List UInt8) (my query : Mem) : Prop where
  my : ∀ k (h : k < D.length), my (nameAt + k) = D[k]
  query : ∀ k (h : k < Q.length), query (headerSize + k) = Q[k]

theorem drop_of_lt {α : Type} {l : List α} {k : Nat} (h : k < l.length) : l.drop k = l[k] :: l.drop (k + 1) :=
  List.drop_eq_getElem_cons h

theorem of_drop_eq_cons {α : Type} {l r : List α} {a : α} {k : Nat} (h : l.drop k = a :: r) :
    ∃ hk : k < l.length, l[k] = a ∧ l.drop (k + 1) = r := by
  have hk : k < l.length := by
    have := congrArg List.length h
    simp only [List.length_drop, List.length_cons] at this
    omega
  rw [drop_of_lt hk, List.cons.injEq] at h
  exact ⟨hk, h⟩

theorem not_differs_nil {n : Nat} {d : List UInt8} : ¬Differs n d [] := nofun

theorem Differs.pos {n : Nat} {d q : List UInt8} (h : Differs n d q) : 0 < d.length ∧ 0 < q.length := by
  cases h <;> exact ⟨Nat.succ_pos _, Nat.succ_pos _⟩

theorem differs_succ {n : Nat} {a b : UInt8} {d q : List UInt8} :
    Differs (n + 1) (a :: d) (b :: q) ↔ toUpper a ≠ toUpper b ∨ Differs n d q := by
  constructor
  · intro h
    cases h with
    | byte h => exact .inl h
    | same _ h => exact .inr h
  · intro h
    by_cases hab : toUpper a = toUpper b
    · exact .same hab (h.resolve_left (· hab))
    · exact .byte hab

theorem differs_zero {a b : UInt8} {d q : List UInt8} :
    Differs 0 (a :: d) (b :: q) ↔
      (b = 0 ∧ a ≠ 0) ∨ (b ≠ 0 ∧ isPointer b ∧ a ≠ 0) ∨ (b ≠ 0 ∧ ¬isPointer b ∧ Differs b.toNat d q) := by
  constructor
  · intro h
    cases h with
    | longer h => exact .inl ⟨rfl, h⟩
    | pointer h hp => exact .inr (.inl ⟨by rintro rfl; exact absurd hp (by decide), hp, h⟩)
    | label h hp hd => exact .inr (.inr ⟨h, hp, hd⟩)
  · rintro (⟨rfl, h⟩ | ⟨_, hp, h⟩ | ⟨h, hp, hd⟩)
    · exact .longer h
    · exact .pointer h hp
    · exact .label h hp hd

theorem differs_zero_drop {D q : List UInt8} {p : Nat} {b : UInt8} :
    Differs 0 (D.drop p) (b :: q) ↔
      (b = 0 ∧ ∃ h : p < D.length, D[p] ≠ 0) ∨ (b ≠ 0 ∧ isPointer b ∧ ∃ h : p < D.length, D[p] ≠ 0) ∨
        (b ≠ 0 ∧ ¬isPointer b ∧ Differs b.toNat (D.drop (p + 1)) q) := by
  by_cases hp : p < D.length
  · rw [drop_of_lt hp, differs_zero]
    simp only [hp, exists_true_left]
  · have hd := fun (h : Differs b.toNat (D.drop (p + 1)) q) => h.pos.1
    have hz := fun (h : Differs 0 (D.drop p) (b :: q)) => h.pos.1
    simp only [List.length_drop] at hd hz
    constructor
    · intro h
      exact absurd (hz h) (by omega)
    · rintro (⟨_, h, _⟩ | ⟨_, _, h, _⟩ | ⟨_, _, h⟩)
      · exact absurd h hp
      · exact absurd h hp
      · exact absurd (hd h) (by omega)

section
variable {D Q : List UInt8} {my query : Mem}

/-- A walk that refuses has read its first two bytes inside. -/
theorem reads_of_refuses {fuel n : Nat} {s : Cmp}
    (h : Refuses D.length Q.length (compareFrom my query fuel (n + 1) s)) :
    s.query < headerSize + Q.length ∧ s.my < nameAt + D.length := by
  obtain ⟨ret, s', he, _, hin⟩ := h
  rw [compareFrom_succ] at he
  split at he
  · cases he
    obtain ⟨hq, hr⟩ := inside_readQuery.mp hin
    exact ⟨hq, (inside_readMy.mp hr).1.2⟩
  · obtain ⟨hq, hr, _⟩ := inside_advance.mp (inside_compareFrom hin he)
    exact ⟨hq, hr.2⟩

theorem read_of_refuses {fuel : Nat} {s : Cmp}
    (h : Refuses D.length Q.length (compareFrom my query fuel 0 s)) : s.query < headerSize + Q.length := by
  obtain ⟨ret, s', he, _, hin⟩ := h
  rw [compareFrom_zero] at he
  split at he
  · exact (inside_leave.mp (inside_compareLabels hin _ _ he)).1
  · cases he
    exact (inside_leave.mp ((inside_compareEnd my).mp hin).2).1

variable (hm : Lies D Q my query)
include hm

theorem refuses_compareEnd {p : Nat} {s : Cmp} (hs : s.my = nameAt + p + 1)
    (hin : Inside D.length Q.length s) :
    Refuses D.length Q.length (some (compareEnd my s)) ↔ ∃ h : p < D.length, D[p] ≠ 0 := by
  have hp : s.my - 1 = nameAt + p := by omega
  have hi : Inside D.length Q.length (compareEnd my s).2 ↔ _ := inside_compareEnd my
  rw [show compareEnd my s = ((compareEnd my s).1, (compareEnd my s).2) from rfl, refuses_some, hi, hp]
  constructor
  · rintro ⟨hr, ⟨_, hlt⟩, _⟩
    have hlt : p < D.length := by omega
    refine ⟨hlt, fun h0 => hr ?_⟩
    simp only [compareEnd, hp, hm.my p hlt, h0, if_true]
  · rintro ⟨hlt, h0⟩
    refine ⟨?_, ⟨by omega, by omega⟩, hin⟩
    simp [compareEnd, hp, hm.my p hlt, h0]

theorem refuses_label {fuel : Nat}
    (hend : ∀ {p i : Nat} {s : Cmp}, PointsAt p i s → Inside D.length Q.length s → Q.length ≤ i + fuel →
      (Refuses D.length Q.length (compareFrom my query fuel 0 s) ↔ Differs 0 (D.drop p) (Q.drop i)))
    (n : Nat) {p i : Nat} {s : Cmp} (hs : PointsAt p i s) (hin : Inside D.length Q.length s)
    (hf : Q.length ≤ i + fuel) :
    Refuses D.length Q.length (compareFrom my query fuel n s) ↔ Differs n (D.drop p) (Q.drop i) := by
  induction n generalizing p i s with
  | zero => exact hend hs hin hf
  | succ n ih =>
    by_cases hb : p < D.length ∧ i < Q.length
    · obtain ⟨hp, hi⟩ := hb
      have hreads : Inside D.length Q.length ((s.readMy s.my).readQuery s.query) := by
        rw [inside_readQuery, inside_readMy, hs.query, hs.my]
        exact ⟨by omega, ⟨by omega, by omega⟩, hin⟩
      have hadv : PointsAt (p + 1) (i + 1) s.advance :=
        ⟨by simp [Cmp.advance, hs.my, Nat.add_assoc], by simp [Cmp.advance, hs.query, Nat.add_assoc]⟩
      have ih := ih hadv hreads (by omega)
      rw [drop_of_lt hp, drop_of_lt hi, differs_succ, compareFrom_succ, hs.my, hs.query, hm.my p hp, hm.query i hi]
      by_cases hab : toUpper D[p] = toUpper Q[i]
      · simp only [hab, ne_eq, not_true_eq_false, if_false, false_or]
        exact ih
      · simp only [ne_eq, hab, not_false_eq_true, if_true, true_or, iff_true]
        rw [refuses_some]
        rw [hs.my, hs.query] at hreads
        exact ⟨by decide, hreads⟩
    · refine iff_of_false (fun h => hb ?_) (fun h => hb ?_)
      · have := reads_of_refuses h
        rw [hs.my, hs.query] at this
        exact ⟨by omega, by omega⟩
      · have := h.pos
        simp only [List.length_drop] at this
        exact ⟨by omega, by omega⟩

/-- From inside a label on, the walk refuses exactly what differs. -/
theorem refuses_compareFrom (fuel n : Nat) {p i : Nat} {s : Cmp} (hs : PointsAt p i s)
    (hin : Inside D.length Q.length s) (hf : Q.length ≤ i + fuel) :
    Refuses D.length Q.length (compareFrom my query fuel n s) ↔ Differs n (D.drop p) (Q.drop i) := by
  induction fuel generalizing n p i s with
  | zero =>
    refine refuses_label hm (fun hs _ hf => ?_) n hs hin hf
    rw [List.drop_of_length_le (l := Q) (by simpa using hf)]
    refine iff_of_false (fun h => ?_) not_differs_nil
    have := read_of_refuses h
    rw [hs.query] at this
    omega
  | succ fuel ihf =>
    refine refuses_label hm (fun {p i s} hs hin hf => ?_) n hs hin hf
    by_cases hi : i < Q.length
    · have hq : query (headerSize + i) = Q[i] := hm.query i hi
      have hleave : Inside D.length Q.length s.leave := by
        rw [inside_leave, hs.query]
        exact ⟨by omega, hin⟩
      have hl : PointsAt (p + 1) i s.leave := ⟨by simp [Cmp.leave, hs.my, Nat.add_assoc], hs.query⟩
      have henter : Inside D.length Q.length s.leave.enter := by
        rw [inside_enter, hl.query]
        exact ⟨by omega, hleave⟩
      rw [compareFrom_zero, compareLabels_succ, hl.query, hs.query, hq, drop_of_lt hi, differs_zero_drop]
      by_cases h0 : Q[i] = 0
      · rw [if_neg (not_not_intro h0), refuses_compareEnd hm hl.my hleave]
        simp only [h0, true_and, ne_eq, not_true_eq_false, false_and, or_false]
      · rw [if_pos h0]
        by_cases hptr : isPointer Q[i]
        · rw [if_pos hptr, refuses_compareEnd hm (s := s.leave.enter) hl.my henter]
          simp only [h0, hptr, false_and, ne_eq, not_false_eq_true, true_and, not_true_eq_false, or_false, false_or]
        · have hq' : PointsAt (p + 1) (i + 1) s.leave.enter :=
            ⟨hl.my, by simp [Cmp.enter, hl.query, Nat.add_assoc]⟩
          rw [if_neg hptr, ihf _ hq' henter (by omega)]
          simp only [h0, hptr, false_and, ne_eq, not_false_eq_true, true_and, false_or]
    · rw [List.drop_of_length_le (l := Q) (by omega)]
      refine iff_of_false (fun h => hi ?_) not_differs_nil
      have := read_of_refuses h
      rw [hs.query] at this
      omega

/-! The walk on a question that matches. -/

theorem compareFrom_agree (fuel : Nat) {y x q d : List UInt8} {p i : Nat} {s : Cmp} (hyx : SameName y x)
    (hQ : Q.drop i = y ++ q) (hD : D.drop p = x ++ d) (hs : PointsAt p i s)
    (hin : Inside D.length Q.length s) :
    ∃ s', compareFrom my query fuel y.length s = compareFrom my query fuel 0 s' ∧
      PointsAt (p + y.length) (i + y.length) s' ∧ Inside D.length Q.length s' := by
  induction y generalizing x p i s with
  | nil => exact ⟨s, rfl, hs, hin⟩
  | cons b y ih =>
    obtain ⟨a, x, rfl, hab, hyx⟩ := List.map_eq_cons_iff.mp (Eq.symm hyx)
    obtain ⟨hi, hQi, hQ⟩ := of_drop_eq_cons hQ
    obtain ⟨hp, hDp, hD⟩ := of_drop_eq_cons hD
    have hadv : PointsAt (p + 1) (i + 1) s.advance :=
      ⟨by simp [Cmp.advance, hs.my, Nat.add_assoc], by simp [Cmp.advance, hs.query, Nat.add_assoc]⟩
    have hreads : Inside D.length Q.length s.advance := by
      rw [inside_advance, hs.query, hs.my]
      exact ⟨by omega, ⟨by omega, by omega⟩, hin⟩
    obtain ⟨s', he, hs', hin'⟩ := ih hyx.symm hQ hD hadv hreads
    refine ⟨s', ?_, ?_, hin'⟩
    · rw [List.length_cons, compareFrom_succ, hs.my, hs.query, hm.my p hp, hm.query i hi, hDp, hQi, hab]
      simpa using he
    · rw [List.length_cons, Nat.add_comm y.length 1, ← Nat.add_assoc, ← Nat.add_assoc]
      exact hs'

theorem compareFrom_match {ls : List (List UInt8)} {l : List UInt8} {fuel : Nat} {x q d : List UInt8} {p i : Nat}
    {s : Cmp} (hls : ∀ l ∈ ls, IsLabel l) (hx : SameName (dottedFrom l ls) x)
    (hQ : Q.drop i = l ++ (encodeLabels ls ++ 0 :: q)) (hD : D.drop p = x ++ d) (hs : PointsAt p i s)
    (hin : Inside D.length Q.length s) (hf : Q.length ≤ i + fuel) :
    ∃ s', compareFrom my query fuel l.length s = some (compareEnd my s') ∧
      s'.my = nameAt + (p + x.length) + 1 ∧ Inside D.length Q.length s' := by
  induction ls generalizing l x p i s fuel with
  | nil =>
    rw [dottedFrom] at hx
    have hlen : l.length = x.length := by simpa using congrArg List.length hx
    obtain ⟨s₁, he, hs₁, hin₁⟩ := compareFrom_agree hm fuel hx hQ hD hs hin
    have hQ₁ : Q.drop (i + l.length) = 0 :: q := by rw [← List.drop_drop, hQ]; simp [encodeLabels]
    obtain ⟨hi, hQi, _⟩ := of_drop_eq_cons hQ₁
    refine ⟨s₁.leave, ?_, ?_, ?_⟩
    · rw [he, compareFrom_zero, hs₁.query, hm.query _ hi, hQi]
      rfl
    · simp [Cmp.leave, hs₁.my, hlen]
    · rw [inside_leave, hs₁.query]
      exact ⟨by omega, hin₁⟩
  | cons l' ls ih =>
    rw [dottedFrom, SameName, List.map_append, List.map_cons] at hx
    obtain ⟨x₁, x', rfl, hx₁, hx'⟩ := List.map_eq_append_iff.mp hx.symm
    obtain ⟨c, x₂, rfl, _, hx₂⟩ := List.map_eq_cons_iff.mp hx'
    obtain ⟨hl', hls⟩ := List.forall_mem_cons.mp hls
    have hlen : x₁.length = l.length := by simpa using congrArg List.length hx₁
    rw [List.append_assoc, List.cons_append] at hD
    obtain ⟨s₁, he, hs₁, hin₁⟩ := compareFrom_agree hm fuel hx₁.symm hQ hD hs hin
    have hQ₁ : Q.drop (i + l.length) = UInt8.ofNat l'.length :: (l' ++ (encodeLabels ls ++ 0 :: q)) := by
      rw [← List.drop_drop, hQ, List.drop_left]
      simp [encodeLabels]
    have hD₁ : D.drop (p + l.length) = c :: (x₂ ++ d) := by
      rw [← List.drop_drop, hD, ← hlen, List.drop_left]
    obtain ⟨hi, hQi, hQ₂⟩ := of_drop_eq_cons hQ₁
    obtain ⟨hp, _, hD₂⟩ := of_drop_eq_cons hD₁
    have hs₂ : PointsAt (p + l.length + 1) (i + l.length + 1) s₁.leave.enter :=
      ⟨by simp [Cmp.enter, Cmp.leave, Cmp.readQuery, hs₁.my, Nat.add_assoc],
        by simp [Cmp.enter, Cmp.leave, Cmp.readQuery, hs₁.query, Nat.add_assoc]⟩
    have hin₂ : Inside D.length Q.length s₁.leave.enter := by
      rw [inside_enter, inside_leave]
      have hq : s₁.leave.query = s₁.query := rfl
      rw [hq, hs₁.query]
      exact ⟨by omega, by omega, hin₁⟩
    obtain ⟨fuel, rfl⟩ : ∃ f, fuel = f + 1 := ⟨fuel - 1, by omega⟩
    obtain ⟨s', he', hmy, hin'⟩ := ih hls hx₂.symm hQ₂ hD₂ hs₂ hin₂
      (show Q.length ≤ i + l.length + 1 + fuel by omega)
    refine ⟨s', ?_, ?_, hin'⟩
    · have hq : query s₁.query = UInt8.ofNat l'.length := by rw [hs₁.query, hm.query _ hi, hQi]
      have hn : (UInt8.ofNat l'.length).toNat = l'.length := hl'.toNat_length
      have h0 : UInt8.ofNat l'.length ≠ 0 := fun h => by
        rw [h] at hn
        exact hl'.nonempty (List.length_eq_zero_iff.mp hn.symm)
      rw [he, compareFrom_zero, compareLabels_succ, hq, if_pos h0]
      have hq' : query s₁.leave.query = UInt8.ofNat l'.length := hq
      rw [hq', if_neg hl'.not_pointer, hn]
      exact he'
    · rw [hmy]
      simp only [List.length_append, List.length_cons, hlen]
      omega

end

end SerialNet.Dns
