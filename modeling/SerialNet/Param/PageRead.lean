import SerialNet.Lib.Html
import SerialNet.Param.Page

/-!
# Reading the Wi-Fi page back

The fields a browser reads on the page `html_rebuild_wifibase` makes. The
template is evaluated row by row; the values between the rows are any text
without a quote.
-/

namespace SerialNet.Param

open Html

/-! ## Literals -/

/-- The lines as lists of characters: decoding a literal takes the kernel long. -/
inductive Spelled : List String → List (List Char) → Prop where
  | nil : Spelled [] []
  | cons {l : List Char} {ls : List String} {cs : List (List Char)} (h : Spelled ls cs) :
      Spelled (String.ofList l :: ls) (l :: cs)

theorem bytes_ofList (l : List Char) : bytes (String.ofList l) = l.map fun c => UInt8.ofNat c.toNat := by
  rw [bytes, String.toList_ofList]

theorem html_spelled {lines : List String} {cs : List (List Char)} (h : Spelled lines cs) :
    html lines = cs.flatMap fun l => l.map (fun c => UInt8.ofNat c.toNat) ++ [13, 10] := by
  induction h with
  | nil => rfl
  | cons _ ih =>
    rw [html, List.flatMap_cons, bytes_ofList, List.flatMap_cons, ← ih]
    rfl

theorem html_append (l m : List String) : html (l ++ m) = html l ++ html m := List.flatMap_append

theorem wifibaseHtml_length : wifibaseHtml.length ≤ 3286 :=
  Nat.le_trans (Nat.le_of_eq (congrArg List.length (@html_spelled wifibaseLines _ (by repeat constructor))))
    (by decide +kernel)

/-! ## nustrstr -/

/-- No text that is looked for starts with a quote. -/
def Unquoted (str : List UInt8) : Prop := ∃ x s, str = x :: s ∧ x ≠ 34

theorem nustrstr_quote {str : List UInt8} (hs : Unquoted str) (t : List UInt8) :
    nustrstr str (34 :: t) = (nustrstr str t).map fun r => (34 :: r.1, r.2) := by
  obtain ⟨x, s, rfl, hx⟩ := hs
  have h : (x :: s).isPrefixOf (34 :: t) = false := by
    rw [List.isPrefixOf_cons_cons, beq_eq_false_iff_ne.mpr hx]
    rfl
  rw [nustrstr, h]
  rfl

theorem selectOption_unquoted (n : UInt8) : Unquoted (selectOption n) :=
  ⟨111, _, by rw [selectOption, bytes_ofList ['o', 'p', 't', 'i', 'o', 'n', ' ', 'v', 'a', 'l', 'u', 'e', '=', '"']]; rfl,
    by decide⟩

theorem inputValue_unquoted (m : String) : Unquoted (inputValue m) :=
  ⟨110, _, by rw [inputValue, bytes_ofList ['n', 'a', 'm', 'e', '=', '"']]; rfl, by decide⟩

/-! ## One substitution -/

/-- A reader, and what follows it in the template. -/
structure Cursor where
  reader : Reader
  rest : List UInt8
  deriving DecidableEq, Repr

/-- The fields read up to the end of the inserted value. -/
def Cursor.insert (c : Cursor) (str value : List UInt8) : Option (List Field × Cursor) :=
  (nustrstr str c.rest).map fun r =>
    (fields c.reader (r.1 ++ str ++ value), ⟨(r.1 ++ str ++ value).foldl step c.reader, r.2⟩)

/-- What was built so far reads as the fields `l`, with the reader at `r` and
`t` to follow; a quote between the two is read already. -/
def Shows (b : Build) (l : List Field) (r : Reader) (t : List UInt8) : Prop :=
  ∃ q, (q = [] ∨ q = [34]) ∧ b.mainstr = q ++ t ∧ Reads start (b.dst ++ q) l r

section
variable {b : Build} {l l' : List Field} {r : Reader} {t u str : List UInt8}

theorem Shows.nustrstr_mainstr (h : Shows b l r t) (hs : Unquoted str) :
    ∃ q, (nustrstr str b.mainstr = (nustrstr str t).map fun p => (q ++ p.1, p.2)) ∧
      Reads start (b.dst ++ q) l r := by
  obtain ⟨q, rfl | rfl, hm, hr⟩ := h
  · exact ⟨[], by simp [hm], hr⟩
  · refine ⟨[34], ?_, hr⟩
    rw [hm]
    exact nustrstr_quote hs t

theorem Shows.insert {value before after : List UInt8} {r' : Reader} (h : Shows b l r t) (hs : Unquoted str)
    (hm : nustrstr str t = some (before, after)) (hr : Reads r (before ++ str ++ value) l' r') :
    (b.insert str value).mainstr = after ∧ Reads start (b.insert str value).dst (l ++ l') r' := by
  obtain ⟨q, hq, hread⟩ := h.nustrstr_mainstr hs
  rw [hm] at hq
  unfold Build.insert
  rw [hq]
  refine ⟨rfl, ?_⟩
  have := hread.append hr
  simp only [Option.map_some, List.append_assoc] at this ⊢
  exact this

theorem insert_none {value : List UInt8} (h : Shows b l r t) (hs : Unquoted str) (hm : nustrstr str t = none) :
    b.insert str value = b := by
  obtain ⟨q, hq, -⟩ := h.nustrstr_mainstr hs
  rw [hm] at hq
  unfold Build.insert
  rw [hq]
  rfl

end

/-! ## Rows -/

def Cursor.checks (c : Cursor) : List UInt8 → Option (List Field × Cursor)
  | [] => some ([], c)
  | n :: l => (c.insert (selectOption n) (32 :: selectCheckDefault)).bind fun x => (x.2.checks l).map fun y => (x.1 ++ y.1, y.2)

/-- The rest of the line behind a text field, and the end of its row. -/
def rowEnd : List String := [" size=\"30\" maxlength=\"100\"></td>", "</tr>"]

def passEnd : List String := [" size=\"30\" maxlength=\"100\" type=\"password\"></td>", "</tr>"]

/-- Reading the rows from `r` on, with these options checked, gives the fields
`l` before the text field `m`; `ends` is what follows its value. -/
def RowReads (r : Reader) (rows : List String) (marks : List UInt8) (m : String) (l : List Field) (ends : List String) :
    Prop :=
  ((Cursor.mk r (html rows)).checks marks).bind (fun x => (x.2.insert (inputValue m) []).map fun y => (x.1 ++ y.1, y.2)) =
    some (l, ⟨inValue (bytes m) [], 34 :: html ends⟩)

instance {r : Reader} {rows : List String} {marks : List UInt8} {m : String} {l : List Field} {ends : List String} :
    Decidable (RowReads r rows marks m l ends) :=
  inferInstanceAs (Decidable (_ = _))

section
variable {b : Build} {l l' : List Field} {r : Reader} {u : List UInt8}

theorem Shows.cursor {c c' : Cursor} {str value : List UInt8} (h : Shows b l c.reader (c.rest ++ u)) (hs : Unquoted str)
    (hc : c.insert str value = some (l', c')) :
    Shows (b.insert str value) (l ++ l') c'.reader (c'.rest ++ u) := by
  obtain ⟨⟨before, after⟩, hm, he⟩ := Option.map_eq_some_iff.mp hc
  cases he
  obtain ⟨hmain, hread⟩ := h.insert hs (nustrstr_append u hm) ⟨rfl, rfl⟩
  exact ⟨[], .inl rfl, hmain, by rwa [List.append_nil]⟩

theorem Shows.checks : ∀ (marks : List UInt8) {b : Build} {l l' : List Field} {c c' : Cursor},
    Shows b l c.reader (c.rest ++ u) → c.checks marks = some (l', c') →
      Shows (marks.foldl Build.check b) (l ++ l') c'.reader (c'.rest ++ u)
  | [], b, l, l', c, c', h, hc => by
    cases hc
    rwa [List.append_nil]
  | n :: marks, b, l, l', c, c', h, hc => by
    obtain ⟨⟨l₁, c₁⟩, h₁, hc⟩ := Option.bind_eq_some_iff.mp hc
    obtain ⟨⟨l₂, c₂⟩, h₂, he⟩ := Option.map_eq_some_iff.mp hc
    cases he
    have := Shows.checks marks (h.cursor (selectOption_unquoted n) h₁) h₂
    rwa [List.append_assoc] at this

theorem Shows.field {c : Cursor} {m : String} {ends v : List UInt8} (h : Shows b l c.reader (c.rest ++ u))
    (hc : c.insert (inputValue m) [] = some (l', ⟨inValue (bytes m) [], 34 :: ends⟩)) (hv : ∀ x ∈ v, x ≠ 34) :
    Shows (b.fill m v) (l ++ (l' ++ [(bytes m, v)])) (behindValue (bytes m)) (ends ++ u) := by
  obtain ⟨⟨before, after⟩, hm, he⟩ := Option.map_eq_some_iff.mp hc
  simp only [Prod.mk.injEq, List.append_nil] at he
  obtain ⟨rfl, hc'⟩ := he
  obtain ⟨hstate, rfl⟩ := Cursor.mk.inj hc'
  have hfield : Reads c.reader (before ++ inputValue m) (fields c.reader (before ++ inputValue m)) (inValue (bytes m) []) :=
    ⟨rfl, hstate⟩
  obtain ⟨hmain, hread⟩ := h.insert (inputValue_unquoted m) (nustrstr_append _ hm) (hfield.append (.value hv))
  refine ⟨[34], .inr rfl, hmain, ?_⟩
  have := hread.append (.quote (.refl (behindValue (bytes m))))
  simp only [List.append_nil, List.nil_append, List.append_assoc] at this ⊢
  exact this

theorem Shows.row {s row rows ends : List String} {marks : List UInt8} {m : String} {v : List UInt8}
    (h : Shows b l r (html (s ++ (row ++ rows)))) (hr : RowReads r (s ++ row) marks m l' ends) (hv : ∀ c ∈ v, c ≠ 34) :
    Shows ((marks.foldl Build.check b).fill m v) (l ++ (l' ++ [(bytes m, v)])) (behindValue (bytes m))
      (html (ends ++ rows)) := by
  rw [← List.append_assoc, html_append] at h
  obtain ⟨⟨l₁, c₁⟩, h₁, hc⟩ := Option.bind_eq_some_iff.mp hr
  obtain ⟨⟨l₂, c₂⟩, h₂, he⟩ := Option.map_eq_some_iff.mp hc
  simp only [Prod.mk.injEq] at he
  obtain ⟨rfl, rfl⟩ := he
  have := (Shows.checks marks h h₁).field h₂ hv
  simp only [List.append_assoc] at this ⊢
  rwa [html_append]

end

/-! ## Options that are not there -/

/-- Whatever follows `str` starts with one of these. -/
def followed (str : List UInt8) (ok : List (List UInt8)) : List UInt8 → Bool
  | [] => true
  | c :: s => (!str.isPrefixOf (c :: s) || ok.any fun o => o.isPrefixOf ((c :: s).drop str.length)) && followed str ok s

theorem followed_nustrstr {str x : List UInt8} {ok : List (List UInt8)} : ∀ {t before after : List UInt8},
    followed str ok t = true → nustrstr (str ++ x) t = some (before, after) → ∃ o ∈ ok, o <+: x ++ after
  | [], _, _, _, h => by cases h
  | c :: t, before, after, hf, h => by
    simp only [followed, Bool.and_eq_true] at hf
    rw [nustrstr] at h
    by_cases hp : (str ++ x).isPrefixOf (c :: t) = true
    · rw [if_pos hp] at h
      obtain ⟨s, hs⟩ := List.isPrefixOf_iff_prefix.mp hp
      have hstr : str.isPrefixOf (c :: t) = true :=
        List.isPrefixOf_iff_prefix.mpr ⟨x ++ s, by rw [← List.append_assoc, hs]⟩
      cases h
      rw [hstr, Bool.not_true, Bool.false_or, List.any_eq_true] at hf
      obtain ⟨⟨o, ho, hox⟩, -⟩ := hf
      refine ⟨o, ho, ?_⟩
      rw [← hs, List.append_assoc, List.drop_left, List.isPrefixOf_iff_prefix] at hox
      rwa [← hs, List.drop_left]
    · rw [if_neg hp] at h
      obtain ⟨⟨b, a⟩, hr, he⟩ := Option.map_eq_some_iff.mp h
      cases he
      exact followed_nustrstr hf.2 hr

/-- From the DHCP flag on only the options 0 and 1 follow. -/
theorem options_left :
    followed (bytes "option value=\"") [[48, 34], [49, 34]]
      (html (passEnd ++ ((dhcpRow ++ staipaddrRow) ++ (stanetmaskRow ++ (gatewayRow ++ (dnsservRow ++ endRows)))))) = true := by
  rw [@html_spelled (passEnd ++ ((dhcpRow ++ staipaddrRow) ++ (stanetmaskRow ++ (gatewayRow ++ (dnsservRow ++ endRows))))) _
    (by repeat constructor)]
  decide +kernel

theorem check_other {b : Build} {l : List Field} {r : Reader} {d : UInt8} (h : 1 < d)
    (hb : Shows b l r (html (passEnd ++ ((dhcpRow ++ staipaddrRow) ++ (stanetmaskRow ++ (gatewayRow ++ (dnsservRow ++ endRows))))))) :
    b.check d = b := by
  refine insert_none hb (selectOption_unquoted d) ?_
  by_contra hne
  obtain ⟨⟨before, after⟩, hm⟩ := Option.ne_none_iff_exists'.mp hne
  have hsel : selectOption d = bytes "option value=\"" ++ (dec d ++ [34]) := List.append_assoc _ _ _
  rw [hsel] at hm
  obtain ⟨o, ho, hpre⟩ := followed_nustrstr options_left hm
  refine (dec_spec d).2.2 h o ho (List.prefix_of_prefix_length_le hpre (List.prefix_append _ _) ?_)
  have hlen : o.length = 2 := by
    rcases List.mem_pair.mp ho with rfl | rfl
    · rfl
    · rfl
  have := (dec_length d).1
  rw [hlen, List.length_append]
  exact Nat.add_le_add_right this 1

/-! ## The three modes -/

/-- What the page shows for network mode, encryption and authentication: each
mark is looked for behind the one before, in whichever list it is found. -/
def shown (protocol encry authMode : UInt8) : UInt8 × UInt8 × UInt8 :=
  if protocol = 0 ∧ encry = 2 then (2, authMode, 0)
  else if encry < authMode then (protocol, authMode, 0)
  else (protocol, encry, authMode)

def modeFields (m : UInt8 × UInt8 × UInt8) : List Field :=
  [(bytes "wifimode", dec m.1), (bytes "encry", dec m.2.1), (bytes "authmode", dec m.2.2)]

/-- Behind the mark at option `n` of that list. -/
def marked (select : String) (n : UInt8) : Reader :=
  { start with
    mode := .attrs [], tag := optionTag, select := bytes select, first := some (dec 0), option := dec n, chosen := some (dec n) }

def past (n : UInt8) (t : List UInt8) : List UInt8 := ((nustrstr (selectOption n) t).map Prod.snd).getD []

/-- From one mark to the next: the mark that is found in its own list, and the
one that is found in the list before. -/
structure ModesRead (tw te ta ts : List UInt8) : Prop where
  wifimode : ∀ p ∈ [0, 2], (Cursor.mk start tw).insert (selectOption p) (32 :: selectCheckDefault) =
    some ([], ⟨marked "wifimode" p, past p tw⟩)
  wifimodeAgain : (Cursor.mk (marked "wifimode" 0) (past 0 tw)).insert (selectOption 2) (32 :: selectCheckDefault) =
    some ([], ⟨marked "wifimode" 2, past 2 tw⟩)
  encry : ∀ p ∈ [0, 2], ∀ e ∈ [0, 1, 2, 3, 4], ¬(p = 0 ∧ e = 2) →
    (Cursor.mk (marked "wifimode" p) (past p tw ++ te)).insert (selectOption e) (32 :: selectCheckDefault) =
      some ([(bytes "wifimode", dec p)], ⟨marked "encry" e, past e te⟩)
  encryAgain : ∀ e ∈ [0, 1, 2, 3, 4], ∀ a ∈ [0, 1, 2, 3], e < a →
    (Cursor.mk (marked "encry" e) (past e te)).insert (selectOption a) (32 :: selectCheckDefault) =
      some ([], ⟨marked "encry" a, past a te⟩)
  authmode : ∀ e ∈ [0, 1, 2, 3, 4], ∀ a ∈ [0, 1, 2, 3], ¬e < a →
    (Cursor.mk (marked "encry" e) (past e te ++ ta)).insert (selectOption a) (32 :: selectCheckDefault) =
      some ([(bytes "encry", dec e)], ⟨marked "authmode" a, past a ta⟩)
  unmarked : ∀ a ∈ [0, 1, 2, 3], (Cursor.mk (marked "encry" a) (past a te ++ (ta ++ ts))).insert (inputValue "apssid") [] =
    some ([(bytes "encry", dec a), (bytes "authmode", dec 0)], ⟨inValue (bytes "apssid") [], 34 :: html rowEnd⟩)
  both : ∀ a ∈ [0, 1, 2, 3], (Cursor.mk (marked "authmode" a) (past a ta ++ ts)).insert (inputValue "apssid") [] =
    some ([(bytes "authmode", dec a)], ⟨inValue (bytes "apssid") [], 34 :: html rowEnd⟩)

theorem modes_read : ModesRead (html wifimodeRows) (html encryRow) (html authmodeRow) (html apssidRows) := by
  rw [@html_spelled wifimodeRows _ (by repeat constructor), @html_spelled encryRow _ (by repeat constructor),
    @html_spelled authmodeRow _ (by repeat constructor), @html_spelled apssidRows _ (by repeat constructor)]
  constructor
  all_goals decide +kernel

section
variable {b : Build} {tw te ta ts u v : List UInt8} {p e a : UInt8}

theorem Shows.modesRead (h : Shows b [] start (tw ++ (te ++ (ta ++ (ts ++ u))))) (hm : ModesRead tw te ta ts)
    (hp : p ∈ [0, 2]) (he : e ∈ [0, 1, 2, 3, 4]) (ha : a ∈ [0, 1, 2, 3]) (hv : ∀ x ∈ v, x ≠ 34) :
    Shows ((((b.check p).check e).check a).fill "apssid" v) (modeFields (shown p e a) ++ [(bytes "apssid", v)])
      (behindValue (bytes "apssid")) (html rowEnd ++ u) := by
  have ha' : a ∈ [0, 1, 2, 3, 4] := List.mem_append_left [4] ha
  have hP := h.cursor (selectOption_unquoted p) (hm.wifimode p hp)
  by_cases hpe : p = 0 ∧ e = 2
  · obtain ⟨rfl, rfl⟩ := hpe
    have hE := hP.cursor (selectOption_unquoted 2) hm.wifimodeAgain
    rw [← List.append_assoc (past 2 tw)] at hE
    have hA := hE.cursor (selectOption_unquoted a) (hm.encry 2 (by decide) a ha' fun h => absurd h.1 (by decide))
    rw [← List.append_assoc ta, ← List.append_assoc (past a te)] at hA
    have hF := hA.field (hm.unmarked a ha) hv
    rw [shown, if_pos ⟨rfl, rfl⟩]
    simp only [List.nil_append, List.cons_append] at hF
    exact hF
  · rw [← List.append_assoc (past p tw)] at hP
    have hE := hP.cursor (selectOption_unquoted e) (hm.encry p hp e he hpe)
    rw [shown, if_neg hpe]
    by_cases hea : e < a
    · have hA := hE.cursor (selectOption_unquoted a) (hm.encryAgain e he a ha hea)
      rw [← List.append_assoc ta, ← List.append_assoc (past a te)] at hA
      have hF := hA.field (hm.unmarked a ha) hv
      rw [if_pos hea]
      simp only [List.nil_append, List.cons_append] at hF
      exact hF
    · rw [← List.append_assoc (past e te)] at hE
      have hA := hE.cursor (selectOption_unquoted a) (hm.authmode e he a ha hea)
      rw [← List.append_assoc (past a ta)] at hA
      have hF := hA.field (hm.both a ha) hv
      rw [if_neg hea]
      simp only [List.nil_append, List.cons_append] at hF
      exact hF

theorem Shows.modes {rows : List String}
    (h : Shows b [] start (html (wifimodeRows ++ (encryRow ++ (authmodeRow ++ (apssidRows ++ rows)))))) (hp : p ∈ [0, 2])
    (he : e ∈ [0, 1, 2, 3, 4]) (ha : a ∈ [0, 1, 2, 3]) (hv : ∀ x ∈ v, x ≠ 34) :
    Shows ((((b.check p).check e).check a).fill "apssid" v) (modeFields (shown p e a) ++ [(bytes "apssid", v)])
      (behindValue (bytes "apssid")) (html (rowEnd ++ rows)) := by
  simp only [html_append] at h ⊢
  exact h.modesRead modes_read hp he ha hv

end

/-! ## The other rows -/

/-- The rows with one text field, in the order of the page. -/
structure RowsRead : Prop where
  apkey : RowReads (behindValue (bytes "apssid")) (rowEnd ++ apkeyRow) [] "apkey" [] passEnd
  apipaddr : RowReads (behindValue (bytes "apkey")) (passEnd ++ apipaddrRow) [] "apipaddr" [] rowEnd
  apnetmask : RowReads (behindValue (bytes "apipaddr")) (rowEnd ++ apnetmaskRow) [] "apnetmask" [] rowEnd
  stassid : ∀ c ∈ [1, 2, 3, 4, 5, 6, 7, 8, 9, 10, 11, 12, 13], RowReads (behindValue (bytes "apnetmask"))
    (rowEnd ++ (channelRow ++ stassidRows)) [c] "stassid" [(bytes "channel", dec c)] rowEnd
  stakey : RowReads (behindValue (bytes "stassid")) (rowEnd ++ stakeyRow) [] "stakey" [] passEnd
  staipaddr : ∀ d ∈ [0, 1], RowReads (behindValue (bytes "stakey")) (passEnd ++ (dhcpRow ++ staipaddrRow)) [d] "staipaddr"
    [(bytes "dhcp", dec d)] rowEnd
  /-- Without a mark the first option is submitted. -/
  staipaddrUnmarked : RowReads (behindValue (bytes "stakey")) (passEnd ++ (dhcpRow ++ staipaddrRow)) [] "staipaddr"
    [(bytes "dhcp", dec 0)] rowEnd
  stanetmask : RowReads (behindValue (bytes "staipaddr")) (rowEnd ++ stanetmaskRow) [] "stanetmask" [] rowEnd
  gateway : RowReads (behindValue (bytes "stanetmask")) (rowEnd ++ gatewayRow) [] "gateway" [] rowEnd
  dnsserv : RowReads (behindValue (bytes "gateway")) (rowEnd ++ dnsservRow) [] "dnsserv" [] rowEnd
  save : fields (behindValue (bytes "dnsserv")) (html (rowEnd ++ endRows)) = [(bytes "save", bytes "submit")]

theorem rows_read : RowsRead := by
  constructor
  case save =>
    rw [@html_spelled (rowEnd ++ endRows) _ (by repeat constructor)]
    decide +kernel
  all_goals
    unfold RowReads
    rw [html_spelled (by repeat constructor)]
    decide +kernel

end SerialNet.Param
