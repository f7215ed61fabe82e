import SerialNet.Param.FormMemory
import SerialNet.Param.IpText
import SerialNet.Web.SendFile

/-!
# Page lookup by name

`http_fid` with the addresses it reads from the request text and the places it
writes in `buf`, over any memory that holds the text.
-/

namespace SerialNet.Http

open Patch hiding Holds
open CStr Param Web

namespace FileId

/-- What a call returns, the parameter it stores, the addresses it read and the places of `buf` it wrote. -/
structure Fid where
  file : Nat
  param : UInt32
  reads : List Nat
  stores : List Nat

def Fid.after (r : Fid) (ts : List Nat) : Fid := { r with reads := ts ++ r.reads }

/-- `while (*name == ' ') name++` in a text of at most `n` characters. -/
def skipSpaces (m : Nat → UInt8) : Nat → Nat → Nat
  | 0, name => name
  | n + 1, name => if m name = 32 then skipSpaces m n (name + 1) else name

/-- The digits copied to `buf`, with room for `room` of them, and the addresses read. -/
def copyDigits (m : Nat → UInt8) : Nat → Nat → List UInt8 × List Nat
  | 0, _ => ([], [])
  | room + 1, name =>
    if isDigit (m name) then (m name :: (copyDigits m room (name + 1)).1, name :: (copyDigits m room (name + 1)).2)
    else ([], [name])

/-- The loop over the table, from entry `file` on. -/
def findFile (m : Nat → UInt8) (name file : Nat) : List (String × FileType) → Fid
  | [] => ⟨0xFFFF, 0, [], []⟩
  | f :: files =>
    let len := (bytes f.1).length
    let (found, ts) := strncmpi m name ((bytes f.1).map toLower)
    if found then
      if m (name + len) = 0 ∨ m (name + len) = 32 then ⟨file, 0, ts ++ [name + len], []⟩
      else if m (name + len) = 63 then
        let (buf, ts') := copyDigits m 8 (name + len + 1)
        ⟨file, atoi buf, ts ++ (name + len) :: ts', List.range (buf.length + 1)⟩
      else (findFile m name (file + 1) files).after (ts ++ [name + len])
    else (findFile m name (file + 1) files).after ts

/-- `http_fid` on a text of at most `n` characters. -/
def httpFidAt (n : Nat) (m : Nat → UInt8) (name : Nat) : Fid :=
  let start := skipSpaces m n name
  (findFile m start 0 httpfiles).after (List.range' name (start - name + 1))

/-! ## What it is for -/

/-- The text names an entry of the table, `rest` being what is behind the name. -/
def Named (file : Nat) (text rest : List UInt8) : Prop :=
  ∃ name, text.dropWhile (· == 32) = name ++ rest ∧ name.map toLower = (fileName file).map toLower

def Asks (file : Nat) (text : List UInt8) : Prop :=
  ∃ rest, Named file text rest ∧ (rest = [] ∨ ∃ c t, rest = c :: t ∧ (c = 32 ∨ c = 63))

def AsksWith (file : Nat) (text t : List UInt8) : Prop := Named file text (63 :: t)

/-- The result is the lookup's, and it keeps to its text and its buffer. -/
structure Finds (a : Nat) (text : List UInt8) (r : Fid) : Prop where
  file : ∀ file, file < httpfiles.length → (r.file = file ↔ Asks file text)
  unknown : r.file = 0xFFFF ↔ ∀ file, file < httpfiles.length → ¬Asks file text
  param : ∀ file t, file < httpfiles.length → AsksWith file text t → r.param.toNat = decimal (t.takeWhile isDigit)
  reads : ∀ x ∈ r.reads, a ≤ x ∧ x ≤ a + text.length
  stores : ∀ i ∈ r.stores, i < 8

/-! ## The text in memory -/

section
variable {m : Nat → UInt8} {a n room : Nat} {t key : List UInt8}

theorem skipSpaces_eq : ∀ {t : List UInt8} {a n : Nat}, Holds m a t → t.length ≤ n →
    skipSpaces m n a = a + (t.takeWhile (· == 32)).length
  | [], a, n, h, _ => by
    have h0 : m a = 0 := h.ended
    cases n with
    | zero => rfl
    | succ n =>
      rw [skipSpaces, if_neg (by rw [h0]; decide)]
      rfl
  | c :: t, a, 0, _, hn => absurd hn (Nat.not_succ_le_zero _)
  | c :: t, a, n + 1, h, hn => by
    have hc : m a = c := h.char (Nat.succ_pos _)
    rw [skipSpaces, hc]
    by_cases h32 : c = 32
    · have htail : Holds m (a + 1) t := Holds.drop (l := [c]) h
      subst h32
      rw [if_pos rfl, skipSpaces_eq htail (Nat.le_of_succ_le_succ hn)]
      simp
      omega
    · rw [if_neg h32]
      simp [h32]

theorem strncmpi_text : ∀ {key : List UInt8} {t : List UInt8} {a : Nat}, Holds m a t → 0 ∉ key →
    ((strncmpi m a key).1 = true ↔ (t.take key.length).map toLower = key) ∧
      ∀ x ∈ (strncmpi m a key).2, a ≤ x ∧ x ≤ a + t.length
  | [], t, a, _, _ => ⟨by simp [strncmpi], by simp [strncmpi]⟩
  | k :: key, [], a, h, h0 => by
    have hz : m a = 0 := h.ended
    have hk : ¬toLower (m a) = k := by
      rw [hz]
      rintro rfl
      exact h0 List.mem_cons_self
    rw [strncmpi, if_neg hk]
    simp
  | k :: key, c :: t, a, h, h0 => by
    have hc : m a = c := h.char (Nat.succ_pos _)
    have htail : Holds m (a + 1) t := Holds.drop (l := [c]) h
    obtain ⟨ih, ihr⟩ := strncmpi_text htail fun hm => h0 (List.mem_cons_of_mem _ hm)
    rw [strncmpi, hc]
    by_cases hk : toLower c = k
    · rw [if_pos hk]
      refine ⟨?_, ?_⟩
      · simp [hk, ih]
      · intro x hx
        rcases List.mem_cons.mp hx with rfl | hx
        · exact ⟨Nat.le_refl _, Nat.le_add_right _ _⟩
        · have := ihr x hx
          rw [List.length_cons]
          omega
    · rw [if_neg hk]
      refine ⟨?_, ?_⟩
      · simp [hk]
      · intro x hx
        rw [List.mem_singleton.mp hx]
        exact ⟨Nat.le_refl _, Nat.le_add_right _ _⟩

theorem copyDigits_text : ∀ {t : List UInt8} {a room : Nat}, Holds m a t →
    (copyDigits m room a).1 = (t.takeWhile isDigit).take room ∧
      ∀ x ∈ (copyDigits m room a).2, a ≤ x ∧ x ≤ a + t.length
  | _, a, 0, _ => ⟨by simp [copyDigits], by simp [copyDigits]⟩
  | [], a, room + 1, h => by
    have hz : m a = 0 := h.ended
    have hd : isDigit 0 = false := by decide
    simp [copyDigits, hz, hd]
  | c :: t, a, room + 1, h => by
    have hc : m a = c := h.char (Nat.succ_pos _)
    have htail : Holds m (a + 1) t := Holds.drop (l := [c]) h
    obtain ⟨ih, ihr⟩ := @copyDigits_text t (a + 1) room htail
    rw [copyDigits, hc]
    cases hd : isDigit c with
    | true =>
      rw [if_pos rfl, ih]
      refine ⟨by simp [hd], ?_⟩
      intro x hx
      rcases List.mem_cons.mp hx with rfl | hx
      · exact ⟨Nat.le_refl _, Nat.le_add_right _ _⟩
      · have := ihr x hx
        rw [List.length_cons]
        omega
    | false =>
      rw [if_neg Bool.false_ne_true]
      refine ⟨by simp [hd], ?_⟩
      intro x hx
      rw [List.mem_singleton.mp hx]
      exact ⟨Nat.le_refl _, Nat.le_add_right _ _⟩

end

/-! ## The table -/

def hits (t : List UInt8) (f : String × FileType) : Bool :=
  matchesName t (bytes f.1) && endsName (t.drop (bytes f.1).length)

/-- The parameter in what is behind the name, and the places of `buf` written for it. -/
def parameterOf : List UInt8 → UInt32 × List Nat
  | [] => (0, [])
  | c :: t =>
    if c = 63 then
      let buf := (t.takeWhile isDigit).take 8
      (atoi buf, List.range (buf.length + 1))
    else (0, [])

/-- The result of the loop over `files`, the entries from `k` on. -/
def Right (t : List UInt8) (files : List (String × FileType)) (k : Nat) (r : Fid) : Prop :=
  (∃ i f, files[i]? = some f ∧ hits t f = true ∧ r.file = k + i ∧
      (r.param, r.stores) = parameterOf (t.drop (bytes f.1).length)) ∨
    ((∀ f ∈ files, hits t f = false) ∧ r.file = 0xFFFF ∧ r.stores = [])

section
variable {m : Nat → UInt8} {a k : Nat} {t : List UInt8} {f : String × FileType} {files : List (String × FileType)} {r : Fid}

theorem Right.cons {reads : List Nat} (hf : hits t f = false) (h : Right t files (k + 1) r) :
    Right t (f :: files) k (r.after reads) := by
  rcases h with ⟨i, g, hi, hg, hk, hp⟩ | ⟨hall, hk, hs⟩
  · exact .inl ⟨i + 1, g, hi, hg, hk.trans (by omega), hp⟩
  · exact .inr ⟨List.forall_mem_cons.mpr ⟨hf, hall⟩, hk, hs⟩

theorem findFile_cons : findFile m a k (f :: files) =
    if (strncmpi m a ((bytes f.1).map toLower)).1 then
      if m (a + (bytes f.1).length) = 0 ∨ m (a + (bytes f.1).length) = 32 then
        ⟨k, 0, (strncmpi m a ((bytes f.1).map toLower)).2 ++ [a + (bytes f.1).length], []⟩
      else if m (a + (bytes f.1).length) = 63 then
        ⟨k, atoi (copyDigits m 8 (a + (bytes f.1).length + 1)).1,
          (strncmpi m a ((bytes f.1).map toLower)).2 ++
            (a + (bytes f.1).length) :: (copyDigits m 8 (a + (bytes f.1).length + 1)).2,
          List.range ((copyDigits m 8 (a + (bytes f.1).length + 1)).1.length + 1)⟩
      else (findFile m a (k + 1) files).after ((strncmpi m a ((bytes f.1).map toLower)).2 ++ [a + (bytes f.1).length])
    else (findFile m a (k + 1) files).after (strncmpi m a ((bytes f.1).map toLower)).2 := rfl

/-- The name of the entry stands at the start of the text. -/
structure NameAt (m : Nat → UInt8) (a : Nat) (t : List UInt8) (f : String × FileType) : Prop where
  name : matchesName t (bytes f.1) = true
  length : (bytes f.1).length ≤ t.length
  rest : Holds m (a + (bytes f.1).length) (t.drop (bytes f.1).length)

theorem nameAt_of_strncmpi (h : Holds m a t) (hz : 0 ∉ (bytes f.1).map toLower)
    (hfound : (strncmpi m a ((bytes f.1).map toLower)).1 = true) : NameAt m a t f := by
  have htake := (strncmpi_text h hz).1.mp hfound
  rw [List.length_map] at htake
  have hlen : (bytes f.1).length ≤ t.length := by
    have hl := congrArg List.length htake
    rw [List.length_map, List.length_map, List.length_take] at hl
    omega
  have hrest := @Holds.drop m a (t.take (bytes f.1).length) (t.drop (bytes f.1).length) (by rwa [List.take_append_drop])
  rw [List.length_take, Nat.min_eq_left hlen] at hrest
  exact ⟨beq_iff_eq.mpr htake, hlen, hrest⟩

theorem hits_of_strncmpi_false (h : Holds m a t) (hz : 0 ∉ (bytes f.1).map toLower)
    (hfound : (strncmpi m a ((bytes f.1).map toLower)).1 = false) : hits t f = false := by
  have hcmp := (strncmpi_text h hz).1
  rw [List.length_map] at hcmp
  have hne : matchesName t (bytes f.1) = false := by
    refine beq_eq_false_iff_ne.mpr fun he => ?_
    rw [hcmp.mpr he] at hfound
    cases hfound
  rw [hits, hne, Bool.false_and]

theorem NameAt.hits_eq (hn : NameAt m a t f) : hits t f = endsName (t.drop (bytes f.1).length) := by
  rw [hits, hn.name, Bool.true_and]

theorem Right.here (hk : r.file = k) (hh : hits t f = true)
    (hp : (r.param, r.stores) = parameterOf (t.drop (bytes f.1).length)) : Right t (f :: files) k r :=
  .inl ⟨0, f, rfl, hh, hk, hp⟩

/-- The parameter behind a `?` is read inside the text. -/
theorem NameAt.question {u : List UInt8} (hn : NameAt m a t f) (hu : t.drop (bytes f.1).length = 63 :: u) :
    (∀ x ∈ (copyDigits m 8 (a + (bytes f.1).length + 1)).2, a ≤ x ∧ x ≤ a + t.length) ∧
      (atoi (copyDigits m 8 (a + (bytes f.1).length + 1)).1,
        List.range ((copyDigits m 8 (a + (bytes f.1).length + 1)).1.length + 1)) = parameterOf (63 :: u) := by
  have hrest := hn.rest
  rw [hu] at hrest
  obtain ⟨hbuf, hreads⟩ := @copyDigits_text m u (a + (bytes f.1).length + 1) 8 (@Holds.drop m _ [63] u hrest)
  refine ⟨fun x hx => ?_, by rw [parameterOf, if_pos rfl, hbuf]⟩
  have hx' := hreads x hx
  have hlen := congrArg List.length hu
  rw [List.length_drop, List.length_cons] at hlen
  omega

/-- Once the name is found, the character behind it decides. -/
theorem findFile_named (hn : NameAt m a t f) (hfound : (strncmpi m a ((bytes f.1).map toLower)).1 = true)
    (hts : ∀ x ∈ (strncmpi m a ((bytes f.1).map toLower)).2, a ≤ x ∧ x ≤ a + t.length)
    (hreads : ∀ x ∈ (findFile m a (k + 1) files).reads, a ≤ x ∧ x ≤ a + t.length)
    (hright : Right t files (k + 1) (findFile m a (k + 1) files)) :
    (∀ x ∈ (findFile m a k (f :: files)).reads, a ≤ x ∧ x ≤ a + t.length) ∧
      Right t (f :: files) k (findFile m a k (f :: files)) := by
  have hlen := hn.length
  have hall : ∀ x ∈ (strncmpi m a ((bytes f.1).map toLower)).2 ++ [a + (bytes f.1).length], a ≤ x ∧ x ≤ a + t.length := by
    intro x hx
    rcases List.mem_append.mp hx with hx | hx
    · exact hts x hx
    · rw [List.mem_singleton.mp hx]
      omega
  have hhits := hn.hits_eq
  have hrest := hn.rest
  rw [findFile_cons, if_pos hfound]
  cases hu : t.drop (bytes f.1).length with
  | nil =>
    rw [hu] at hrest hhits
    have hc : m (a + (bytes f.1).length) = 0 := hrest.ended
    rw [if_pos (.inl hc)]
    exact ⟨hall, .here rfl hhits (by rw [hu]; rfl)⟩
  | cons c u =>
    rw [hu] at hrest hhits
    have hc : m (a + (bytes f.1).length) = c := hrest.char (Nat.succ_pos _)
    have hc0 : c ≠ 0 := fun h0 => hrest.nonzero (h0 ▸ List.mem_cons_self)
    rw [hc]
    by_cases h32 : c = 32
    · subst h32
      rw [if_pos (.inr rfl)]
      exact ⟨hall, .here rfl hhits (by rw [hu]; rfl)⟩
    · rw [if_neg (not_or.mpr ⟨hc0, h32⟩)]
      by_cases h63 : c = 63
      · subst h63
        obtain ⟨hdigits, hparam⟩ := hn.question hu
        rw [if_pos rfl]
        refine ⟨fun x hx => ?_, .here rfl hhits (by rw [hu]; exact hparam)⟩
        rcases List.mem_append.mp hx with hx | hx
        · exact hts x hx
        · rcases List.mem_cons.mp hx with rfl | hx
          · omega
          · exact hdigits x hx
      · have hno : hits t f = false := by
          rw [hhits, endsName]
          simp [h32, h63]
        rw [if_neg h63]
        refine ⟨fun x hx => ?_, hright.cons hno⟩
        rcases List.mem_append.mp hx with hx | hx
        · exact hall x hx
        · exact hreads x hx

theorem findFile_text (h : Holds m a t) : ∀ {files : List (String × FileType)} {k : Nat},
    (∀ f ∈ files, 0 ∉ (bytes f.1).map toLower) →
      (∀ x ∈ (findFile m a k files).reads, a ≤ x ∧ x ≤ a + t.length) ∧ Right t files k (findFile m a k files)
  | [], k, _ => ⟨nofun, .inr ⟨nofun, rfl, rfl⟩⟩
  | f :: files, k, hz => by
    obtain ⟨ihr, ih⟩ := findFile_text (k := k + 1) h fun f hf => hz f (List.mem_cons_of_mem _ hf)
    have hzf := hz f List.mem_cons_self
    have hts := (strncmpi_text h hzf).2
    cases hfound : (strncmpi m a ((bytes f.1).map toLower)).1 with
    | false =>
      rw [findFile_cons, hfound, if_neg Bool.false_ne_true]
      refine ⟨fun x hx => ?_, ih.cons (hits_of_strncmpi_false h hzf hfound)⟩
      rcases List.mem_append.mp hx with hx | hx
      · exact hts x hx
      · exact ihr x hx
    | true => exact findFile_named (nameAt_of_strncmpi h hzf hfound) hfound hts ihr ih

end

/-! ## The entry asked for -/

section
variable {file file' : Nat} {text rest rest' : List UInt8}

theorem fileName_lower : ∀ f < httpfiles.length, 0 ∉ (fileName f).map toLower ∧ 32 ∉ (fileName f).map toLower ∧
    63 ∉ (fileName f).map toLower := by decide +kernel

theorem fileName_inj : ∀ f < httpfiles.length, ∀ g < httpfiles.length,
    (fileName f).map toLower = (fileName g).map toLower → f = g := by decide +kernel

theorem named_iff : Named file text rest ↔
    matchesName (text.dropWhile (· == 32)) (fileName file) = true ∧
      (text.dropWhile (· == 32)).drop (fileName file).length = rest := by
  rw [matchesName, beq_iff_eq]
  constructor
  · rintro ⟨name, hs, hname⟩
    have hlen : (fileName file).length = name.length := by simpa using (congrArg List.length hname).symm
    rw [hs, hlen, List.take_left, List.drop_left]
    exact ⟨hname, rfl⟩
  · rintro ⟨hname, rfl⟩
    exact ⟨_, (List.take_append_drop _ _).symm, hname⟩

theorem asks_iff : Asks file text ↔ hits (text.dropWhile (· == 32)) (httpfiles.getD file ("", .unknown)) = true := by
  rw [hits, Bool.and_eq_true, endsName]
  constructor
  · rintro ⟨rest, hn, hr⟩
    obtain ⟨hname, hrest⟩ := named_iff.mp hn
    refine ⟨hname, ?_⟩
    rw [show (bytes (httpfiles.getD file ("", .unknown)).1).length = (fileName file).length from rfl, hrest]
    rcases hr with rfl | ⟨c, t, rfl, rfl | rfl⟩
    · rfl
    · rfl
    · rfl
  · rintro ⟨hname, hends⟩
    refine ⟨_, named_iff.mpr ⟨hname, rfl⟩, ?_⟩
    rw [show (bytes (httpfiles.getD file ("", .unknown)).1).length = (fileName file).length from rfl] at hends
    generalize (text.dropWhile (· == 32)).drop (fileName file).length = rest at hends
    cases rest with
    | nil => exact .inl rfl
    | cons c t => exact .inr ⟨c, t, rfl, by simpa using hends⟩

/-- No name goes on with the blank or the `?` behind another. -/
theorem named_prefix {name name' : List UInt8} (hf' : file' < httpfiles.length) (hname' : name'.map toLower = (fileName file').map toLower)
    (hr : rest = [] ∨ ∃ c t, rest = c :: t ∧ (c = 32 ∨ c = 63)) {l : List UInt8} (hl : name' = name ++ l)
    (hrest : rest = l ++ rest') : l = [] := by
  cases l with
  | nil => rfl
  | cons c l =>
    rcases hr with rfl | ⟨d, t, rfl, hd⟩
    · cases hrest
    · obtain ⟨rfl, -⟩ := List.cons.inj hrest
      have hmem : toLower d ∈ (fileName file').map toLower := by
        rw [← hname', hl]
        simp
      rcases hd with rfl | rfl
      · exact absurd hmem (fileName_lower file' hf').2.1
      · exact absurd hmem (fileName_lower file' hf').2.2

theorem asks_unique (hf : file < httpfiles.length) (hf' : file' < httpfiles.length) (h : Asks file text)
    (h' : Asks file' text) : file = file' := by
  obtain ⟨rest, ⟨name, hs, hname⟩, hr⟩ := h
  obtain ⟨rest', ⟨name', hs', hname'⟩, hr'⟩ := h'
  have heq : name = name' := by
    rcases List.append_eq_append_iff.mp (hs.symm.trans hs') with ⟨l, hl, hrest⟩ | ⟨l, hl, hrest⟩
    · rw [hl, named_prefix hf' hname' hr hl hrest, List.append_nil]
    · rw [hl, named_prefix hf hname hr' hl hrest, List.append_nil]
  exact fileName_inj file hf file' hf' (hname.symm.trans (heq ▸ hname'))

end

/-- Fewer than eight digits follow the `?`. -/
def Short (text : List UInt8) : Prop :=
  ∀ file t, file < httpfiles.length → AsksWith file text t → (t.takeWhile isDigit).length < 8

section
variable {m : Nat → UInt8} {a n file : Nat} {text t : List UInt8}

theorem AsksWith.asks (h : AsksWith file text t) : Asks file text := ⟨_, h, .inr ⟨63, t, rfl, .inr rfl⟩⟩

/-- The loop runs on what is behind the spaces. -/
theorem httpFidAt_text (h : Holds m a text) (hn : text.length ≤ n) :
    (∀ x ∈ (httpFidAt n m a).reads, a ≤ x ∧ x ≤ a + text.length) ∧
      Right (text.dropWhile (· == 32)) httpfiles 0 (httpFidAt n m a) := by
  have hsplit := List.takeWhile_append_dropWhile (p := (· == 32)) (l := text)
  have hlen := congrArg List.length hsplit
  rw [List.length_append] at hlen
  have hrest : Holds m (a + (text.takeWhile (· == 32)).length) (text.dropWhile (· == 32)) :=
    Holds.drop (by rwa [hsplit])
  have hz : ∀ f ∈ httpfiles, 0 ∉ (bytes f.1).map toLower := by decide +kernel
  obtain ⟨hreads, hright⟩ := findFile_text (k := 0) hrest hz
  rw [httpFidAt, skipSpaces_eq h hn]
  refine ⟨fun x hx => ?_, hright⟩
  rcases List.mem_append.mp hx with hx | hx
  · obtain ⟨i, hi, rfl⟩ := List.mem_range'.mp hx
    omega
  · have := hreads x hx
    omega

theorem httpFid_eq : httpFid text = (httpfiles.findIdx? (hits (text.dropWhile (· == 32)))).getD 0xFFFF := rfl

/-- The file is that of the lookup on the text. -/
theorem httpFidAt_file (h : Holds m a text) (hn : text.length ≤ n) : (httpFidAt n m a).file = httpFid text := by
  obtain ⟨-, hright⟩ := httpFidAt_text h hn
  rw [httpFid_eq]
  rcases hright with ⟨i, f, hi, hhit, hfile, -⟩ | ⟨hall, hfile, -⟩
  · obtain ⟨hlt, rfl⟩ := List.getElem?_eq_some_iff.mp hi
    cases hfind : httpfiles.findIdx? (hits (text.dropWhile (· == 32))) with
    | none =>
      rw [List.findIdx?_eq_none_iff.mp hfind _ (List.getElem_mem hlt)] at hhit
      cases hhit
    | some j =>
      obtain ⟨hj, hhitj, -⟩ := List.findIdx?_eq_some_iff_getElem.mp hfind
      have hask : ∀ {k} (hk : k < httpfiles.length), hits (text.dropWhile (· == 32)) httpfiles[k] = true → Asks k text := by
        intro k hk hh
        rw [asks_iff, show httpfiles.getD k ("", .unknown) = httpfiles[k] by simp [List.getD, hk]]
        exact hh
      rw [hfile, Nat.zero_add, asks_unique hlt hj (hask hlt hhit) (hask hj hhitj)]
      rfl
  · rw [List.findIdx?_eq_none_iff.mpr hall, hfile]
    rfl

theorem decimalFrom_lt : ∀ {s : List UInt8} {n : Nat}, allDigits s = true → decimalFrom n s < (n + 1) * 10 ^ s.length
  | [], n, _ => by simp [decimalFrom]
  | c :: s, n, h => by
    simp only [allDigits, List.all_cons, Bool.and_eq_true] at h
    have hc : (c - 48).toNat ≤ 9 := digit_le h.1
    have hle : n * 10 + (c - 48).toNat + 1 ≤ (n + 1) * 10 := by omega
    calc decimalFrom n (c :: s) < (n * 10 + (c - 48).toNat + 1) * 10 ^ s.length := decimalFrom_lt h.2
      _ ≤ (n + 1) * 10 * 10 ^ s.length := Nat.mul_le_mul_right _ hle
      _ = (n + 1) * 10 ^ (c :: s).length := by rw [List.length_cons, Nat.pow_succ', Nat.mul_assoc]

theorem atoi_short {s : List UInt8} (h : allDigits s = true) (hlen : s.length < 8) : (atoi s).toNat = decimal s := by
  have hlt : decimal s < (0 + 1) * 10 ^ s.length := decimalFrom_lt h
  have hpow : 10 ^ s.length ≤ 10 ^ 7 := Nat.pow_le_pow_right (by decide) (Nat.le_of_lt_succ hlen)
  rw [atoi_decimal h, UInt32.toNat_ofNat', Nat.mod_eq_of_lt]
  omega

theorem parameterOf_digits : parameterOf (63 :: t) =
    (atoi ((t.takeWhile isDigit).take 8), List.range (((t.takeWhile isDigit).take 8).length + 1)) := rfl

theorem AsksWith.drop (h : AsksWith file text t) :
    (text.dropWhile (· == 32)).drop (bytes (httpfiles.getD file ("", .unknown)).1).length = 63 :: t :=
  (named_iff.mp h).2

/-- Where an entry is found, the parameter and the buffer are right for fewer than eight digits. -/
theorem finds_of_hit {r : Fid} {i : Nat} (hreads : ∀ x ∈ r.reads, a ≤ x ∧ x ≤ a + text.length)
    (hi : i < httpfiles.length) (hasks : Asks i text) (hfile : r.file = i)
    (hpar : (r.param, r.stores) =
      parameterOf ((text.dropWhile (· == 32)).drop (bytes (httpfiles.getD i ("", .unknown)).1).length)) :
    Finds a text r ↔ Short text := by
  constructor
  · intro hF file t hf hask
    obtain rfl := asks_unique hf hi hask.asks hasks
    rw [hask.drop, parameterOf_digits] at hpar
    refine Nat.lt_of_not_le fun h8 => ?_
    have hmem : 8 ∈ r.stores := by
      rw [(Prod.mk.inj hpar).2, List.length_take, Nat.min_eq_left h8]
      exact List.mem_range.mpr (by decide)
    exact absurd (hF.stores 8 hmem) (by decide)
  · intro hS
    refine ⟨fun file hf => ?_, ?_, fun file t hf hask => ?_, hreads, fun x hx => ?_⟩
    · rw [hfile]
      exact ⟨fun he => he ▸ hasks, fun ha => asks_unique hi hf hasks ha⟩
    · have hne : i ≠ 0xFFFF := Nat.ne_of_lt (Nat.lt_trans hi (by decide))
      rw [hfile]
      exact ⟨fun he => absurd he hne, fun hno => absurd hasks (hno i hi)⟩
    · have hlt := hS file t hf hask
      obtain rfl := asks_unique hf hi hask.asks hasks
      have hdigits : allDigits (t.takeWhile isDigit) = true := List.all_takeWhile
      rw [hask.drop, parameterOf_digits, List.take_of_length_le (Nat.le_of_lt hlt)] at hpar
      rw [(Prod.mk.inj hpar).1, atoi_short hdigits hlt]
    · obtain ⟨rest, hn, -⟩ := hasks
      have hrest : (text.dropWhile (· == 32)).drop (bytes (httpfiles.getD i ("", .unknown)).1).length = rest :=
        (named_iff.mp hn).2
      rw [hrest] at hpar
      rcases rest with _ | ⟨c, t⟩
      · rw [(Prod.mk.inj hpar).2] at hx
        cases hx
      · by_cases h63 : c = 63
        · subst h63
          have hlt := hS i t hi hn
          rw [parameterOf_digits, List.take_of_length_le (Nat.le_of_lt hlt)] at hpar
          rw [(Prod.mk.inj hpar).2] at hx
          have := List.mem_range.mp hx
          omega
        · rw [parameterOf, if_neg h63] at hpar
          rw [(Prod.mk.inj hpar).2] at hx
          cases hx

/-- `http_fid` finds the entry a text asks for, and keeps to the text and to its buffer, exactly when fewer
than eight digits follow the `?`. -/
theorem http_fid_finds (h : Holds m a text) (hn : text.length ≤ n) :
    Finds a text (httpFidAt n m a) ↔ Short text := by
  obtain ⟨hreads, hright⟩ := httpFidAt_text h hn
  generalize httpFidAt n m a = r at *
  rcases hright with ⟨i, f, hi, hhit, hfile, hpar⟩ | ⟨hall, hfile, hstores⟩
  · obtain ⟨hlt, rfl⟩ := List.getElem?_eq_some_iff.mp hi
    have hget : httpfiles.getD i ("", .unknown) = httpfiles[i] := by simp [List.getD, hi]
    rw [← hget] at hhit hpar
    exact finds_of_hit hreads hlt (asks_iff.mpr hhit) (hfile.trans (Nat.zero_add i)) hpar
  · have hnone : ∀ file, file < httpfiles.length → ¬Asks file text := by
      intro file hf ha
      have hget : httpfiles.getD file ("", .unknown) = httpfiles[file] := by simp [List.getD, hf]
      rw [asks_iff, hget, hall _ (List.getElem_mem hf)] at ha
      cases ha
    refine iff_of_true ⟨fun file hf => ?_, ?_, fun file t hf hask => ?_, hreads, ?_⟩ fun file t hf hask => ?_
    · rw [hfile]
      exact ⟨fun he => absurd hf (by rw [← he]; decide), fun ha => absurd ha (hnone file hf)⟩
    · exact iff_of_true hfile hnone
    · exact absurd hask.asks (hnone file hf)
    · rw [hstores]
      exact nofun
    · exact absurd hask.asks (hnone file hf)

end

theorem http_fid_finds_root :
    Finds 0 (bytes " /?42") (httpFidAt 5 (patch (fun _ => 0) 0 (bytes " /?42" ++ [0])) 0) := by
  have hlen : (bytes " /?42").length = 5 := by decide +kernel
  refine (http_fid_finds (holds_patch (by decide +kernel)) (Nat.le_of_eq hlen)).mpr ?_
  rintro file t - ⟨name, hs, -⟩
  have hle := (List.dropWhile_sublist (· == 32) (l := bytes " /?42")).length_le
  rw [hs, hlen, List.length_append, List.length_cons] at hle
  have htake := (List.takeWhile_sublist isDigit (l := t)).length_le
  omega

/-- Eight digits put the ending zero behind the buffer. -/
theorem http_fid_overruns : ¬∀ m a text, Holds m a text → Finds a text (httpFidAt text.length m a) := by
  intro h
  have hholds := @holds_patch (fun _ => 0) 0 (bytes "/?12345678") (by decide +kernel)
  have hstores := (h _ 0 _ hholds).stores 8
  revert hstores
  decide +kernel

end FileId

end SerialNet.Http
