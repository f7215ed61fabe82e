import SerialNet.Param.PageBuilder
import SerialNet.Web.Server

/-!
# What http_sendfile sends

The buffer `SendData` and the calls of `send` when a file of the page table is
requested. The header is printed for the length of the template, the page put
behind it, and the header printed again for the length of the page.
-/

namespace SerialNet.Http

open Patch Param Web

/-! ## The file table -/

def httpfiles : List (String × FileType) :=
  [("/", .html), ("/login.html", .html), ("/status.html", .html), ("/wifibase.html", .html), ("/wifinet.html", .html),
   ("/public.css", .css)]

/-- `strncmpi(name, str, strlen(str)) == 0`. -/
def matchesName (name str : List UInt8) : Bool := (name.take str.length).map toLower == str.map toLower

/-- The character behind the name is none, a blank or the `?` of a parameter. -/
def endsName (rest : List UInt8) : Bool := rest.head?.all fun c => c == 32 || c == 63

/-- `http_fid`, but for the parameter. -/
def httpFid (name : List UInt8) : Nat :=
  let name := name.dropWhile (· == 32)
  (httpfiles.findIdx? fun f => matchesName name (bytes f.1) && endsName (name.drop (bytes f.1).length)).getD 0xFFFF

def httpFtype (file : Nat) : FileType := (httpfiles.getD file ("", .unknown)).2

structure PageEnv where
  user : UserCfgParam
  wlWorkmode : Int
  ip : Vector UInt8 4
  mac : Vector UInt8 6

/-- Where a function that fills a buffer leaves the memory: `top` is behind the
highest byte written, and `start` is `*start`. -/
structure Parsed where
  mem : Nat → UInt8
  top : Nat
  len : UInt32
  start : Nat

/-- The copying loop of `http_fparse`, with room for `room` bytes after the next. -/
def copyFile : Nat → List UInt8 → Nat → List UInt8 × Nat
  | _, [], start => ([], start + 1)
  | 0, c :: _, start => ([c], start + 1)
  | room + 1, c :: src, start =>
    let r := copyFile room src (start + 1)
    (c :: r.1, r.2)

/-- A builder at the address `dst`. -/
def buildAt (builder : (Nat → UInt8) → List UInt8 → UInt32 → Option (Writer × UInt32)) (m : Nat → UInt8) (dst : Nat)
    (src : List UInt8) (start : Nat) (len : UInt32) : Option Parsed :=
  (builder (fun x => m (dst + x)) (src.drop start) len).map fun r =>
    { mem := fun x => if x < dst then m x else r.1.mem (x - dst)
      top := dst + r.1.top
      len := r.2
      start := start }

/-- `http_fparse` for a `len` that is not 0; `src` is the string at `html_buf`. -/
def httpFparse (e : PageEnv) (m : Nat → UInt8) (dst : Nat) (src : List UInt8) (file start : Nat) (len : UInt32) :
    Option Parsed :=
  if file = 2 then buildAt (htmlRebuildSysstatus e.ip e.mac) m dst src start len
  else if file = 3 then buildAt (rebuildWifibase e.user) m dst src start len
  else if file = 4 then buildAt (htmlRebuildWifinet e.user e.wlWorkmode) m dst src start len
  else
    let r := copyFile (len.toNat - 1) (src.drop start) start
    some ⟨patch m dst r.1, dst + r.1.length, UInt32.ofNat r.1.length, r.2⟩

def httpFdata (m : Nat → UInt8) (dst : Nat) (src : List UInt8) (start len : UInt32) : Parsed :=
  let flen := UInt32.ofNat src.length
  let len := if start + len > flen then flen - start else len
  let data := (src.drop start.toNat).take len.toNat
  ⟨patch m dst data, dst + data.length, len, start.toNat⟩

/-- `http_flen`: the length of the string of a page, and that of the file else. -/
def httpFlen (file : Nat) (src : List UInt8) : UInt32 := if file < httpfiles.length then UInt32.ofNat src.length else 0

/-! ## http_sendfile -/

def sendBufferSize : Nat := 4096

/-- `SendData` and what lies behind it, `top` behind the highest byte written, and
what `send` was given. -/
structure Sender where
  mem : Nat → UInt8
  top : Nat
  sent : List (List UInt8)

def Sender.write (s : Sender) (a : Nat) (l : List UInt8) : Sender :=
  { s with mem := patch s.mem a l, top := max s.top (a + l.length) }

def Sender.parsed (s : Sender) (p : Parsed) : Sender := { s with mem := p.mem, top := max s.top p.top }

/-- `tcp_send`; nothing when it reads behind `SendData`. -/
def Sender.tcpSend (s : Sender) (len : UInt32) : Option Sender :=
  if len.toNat ≤ sendBufferSize then some { s with sent := s.sent ++ [read s.mem 0 len.toNat] } else none

def httpHeader (control type : String) : List UInt8 :=
  bytes "HTTP/1.1 200 OK\r\n" ++ bytes "Server: login\r\n" ++ bytes "Connection: Close\r\n" ++ bytes control ++
    bytes "Content-Type: " ++ bytes type ++ bytes "\r\n" ++ bytes "Content-Length: "

def header : FileType → Option (List UInt8)
  | .html => some (httpHeader "Cache-Control: no-store, no-cache, max-age=0\r\nPragma: no-cache\r\n"
      "text/html; charset=gb2312 ")
  | .js => some (httpHeader "Cache-Control: no-store, no-cache, max-age=86400\r\n" "application/x-javascript")
  | .css => some (httpHeader "Cache-Control: no-store, no-cache, max-age=86400\r\n" "text/css")
  | .icon => some (httpHeader "Cache-Control: no-store, no-cache, max-age=86400\r\n" "image/x-icon")
  | _ => none

/-- The header with `"%i\r\n\r\n"` of `len`. -/
def headed (text : List UInt8) (len : UInt32) : List UInt8 := text ++ digitsInt len.toBitVec.toInt ++ bytes "\r\n\r\n"

def notFound : List UInt8 :=
  bytes "HTTP/1.1 404 Not found\r\nServer: login\r\nConnection: Close\r\n\r\nError 404 Not found\r\n\r\n"

/-- The loop over a dynamic page; `fuel` bounds its rounds. -/
def pageLoop (e : PageEnv) (src : List UInt8) (file : Nat) (flen : UInt32) :
    Nat → Sender → Nat → UInt32 → UInt32 → Nat → Option Sender
  | 0, _, _, _, _, _ => none
  | fuel + 1, s, tx, len, fpos, fparse =>
    (httpFparse e s.mem tx src file fparse 4096).bind fun p =>
      let tx := tx - len.toNat
      let head := headed ((header .html).getD []) p.len
      let s := ((s.parsed p).write tx (head ++ [0])).write (tx + head.length) [60]
      let fpos := fpos + p.len
      let len := UInt32.ofNat head.length + p.len
      if len = 0 then some s
      else (s.tcpSend len).bind fun s => if fpos < flen then pageLoop e src file flen fuel s 0 0 fpos p.start else some s

/-- The loop over any other file. -/
def dataLoop (src : List UInt8) (flen : UInt32) : Nat → Sender → Nat → UInt32 → UInt32 → Option Sender
  | 0, _, _, _, _ => none
  | fuel + 1, s, tx, len, fpos =>
    let p := httpFdata s.mem tx src fpos 4096
    let s := s.parsed p
    let fpos := fpos + p.len
    let len := len + p.len
    if len = 0 then some s
    else (s.tcpSend len).bind fun s => if fpos < flen then dataLoop src flen fuel s 0 0 fpos else some s

/-- `http_sendfile` with a name, on the contents of the files. -/
def httpSendfile (e : PageEnv) (content : Nat → List UInt8) (fuel : Nat) (name : List UInt8) (m : Nat → UInt8) :
    Option Sender :=
  let file := httpFid name
  let ftype := httpFtype file
  let src := content file
  let flen := httpFlen file src
  let s : Sender := ⟨m, 0, []⟩
  if flen = 0 then (s.write 0 (notFound ++ [0])).tcpSend (UInt32.ofNat notFound.length)
  else
    let head := (header ftype).map (headed · flen)
    let s := (head.map fun head => s.write 0 (head ++ [0])).getD s
    let len := (head.map List.length).getD 0
    match ftype with
    | .html | .xml => pageLoop e src file flen fuel s len (UInt32.ofNat len) 0 0
    | .unknown => some s
    | _ => dataLoop src flen fuel s len (UInt32.ofNat len) 0

def fileName (file : Nat) : List UInt8 := bytes (httpfiles.getD file ("", .unknown)).1

theorem httpFid_name : ∀ file, file < httpfiles.length → httpFid (fileName file) = file := by decide +kernel

theorem httpFtype_page : ∀ file, file < 5 → httpFtype file = .html := by decide

/-! ## What is to be sent -/

def heading (text : List UInt8) (n : Nat) : List UInt8 := text ++ digits n ++ bytes "\r\n\r\n"

/-- The bytes that `http_fparse` or `http_fdata` delivers of a file. -/
def delivered (e : PageEnv) (file : Nat) (src : List UInt8) : Option (List UInt8) :=
  match httpFtype file with
  | .html => (httpFparse e (fun _ => 0) 0 src file 0 4096).map fun p => read p.mem 0 p.len.toNat
  | _ =>
    let p := httpFdata (fun _ => 0) 0 src 0 4096
    some (read p.mem 0 p.len.toNat)

/-- A header with the length of the file and the file are sent, and nothing is written behind `SendData`. -/
def Framed (e : PageEnv) (content : Nat → List UInt8) (file : Nat) (m : Nat → UInt8) : Prop :=
  ∃ fuel s text page, httpSendfile e content fuel (fileName file) m = some s ∧ header (httpFtype file) = some text ∧
    delivered e file (content file) = some page ∧ s.top ≤ sendBufferSize ∧
    s.sent.flatten = heading text page.length ++ page

/-! ## The pages -/

/-- What a draft delivers, the bytes that are counted, and how far it reaches. -/
def outline (d : Draft) : List UInt8 × Nat := (d.page.take (d.page.length - d.slack), max d.reach d.page.length)

/-- The bytes `http_fparse` delivers of a page, and how far it writes for them. -/
def pageOf (e : PageEnv) (file : Nat) (src : List UInt8) : Option (List UInt8 × Nat) :=
  if file = 2 then (draft (sysstatusSteps e.ip e.mac) [] src).map outline
  else if file = 3 then (draft (wifibaseSteps e.user) [] src).map outline
  else if file = 4 then (draft (wifinetSteps e.user e.wlWorkmode) (baudOption e.user.baudrate) src).map outline
  else some (src, src.length)

/-- The page is at `dst`, and nothing is written outside its reach. -/
structure Delivers (p : Parsed) (m : Nat → UInt8) (dst : Nat) (page : List UInt8) (reach : Nat) : Prop where
  text : Holds p.mem dst page
  below : ∀ x, x < dst → p.mem x = m x
  above : ∀ x, dst + reach ≤ x → p.mem x = m x
  top : p.top = dst + reach
  len : p.len.toNat = page.length

/-- A page that reaches no further than 4096 bytes is delivered, any other is cut behind them. -/
def Fills (m : Nat → UInt8) (dst : Nat) : Option (List UInt8 × Nat) → Option Parsed → Prop
  | none, r => r = none
  | some (page, reach), r => ∃ p, r = some p ∧ (reach ≤ 4096 → Delivers p m dst page reach) ∧
      (4096 < reach → dst + 4096 ≤ p.top)

section
variable {e : PageEnv} {src page : List UInt8} {m : Nat → UInt8} {dst file reach : Nat} {p : Parsed}

theorem buildAt_fills {steps : List Step} {digital : List UInt8} (hs : ∀ step ∈ steps, ∀ x, (step x).Sound) :
    Fills m dst ((draft steps digital src).map outline) (buildAt (rebuild steps digital) m dst src 0 4096) := by
  rw [buildAt, List.drop_zero]
  rcases rebuild_follows hs digital (fun x => m (dst + x)) src 4096 with ⟨hw, hd⟩ | ⟨w, d, hw, hd, h⟩
  · rw [hw, hd]
    rfl
  · have hframe : ∀ x, (w.finish 4096).1.top ≤ x → (w.finish 4096).1.mem x = m (dst + x) := rebuild_frame hs hw
    have hlen : (d.page.take (d.page.length - d.slack)).length = min (d.page.length - d.slack) d.page.length :=
      List.length_take
    rw [hw, hd]
    refine ⟨_, rfl, fun hreach => ?_, fun hreach => ?_⟩
    · have hfit : max d.reach d.page.length ≤ 4096 := hreach
      obtain ⟨hmem, htop, hret⟩ := finish_page h (Nat.le_trans (Nat.le_max_right _ _) hfit)
      refine ⟨fun i hi => ?_, fun x hx => if_pos hx, fun x hx => ?_, congrArg (dst + ·) htop, ?_⟩
      · have hi' : i < d.page.length := by omega
        dsimp only
        rw [if_neg (by omega), Nat.add_sub_cancel_left]
        have hbyte := hmem i hi'
        rw [Nat.zero_add] at hbyte
        rw [hbyte]
        exact (List.getElem_take ..).symm
      · have hx' : dst + max d.reach d.page.length ≤ x := hx
        dsimp only
        rw [if_neg (by omega), hframe _ (by omega), show dst + (x - dst) = x by omega]
      · dsimp only
        omega
    · have hover : ¬(d.reach ≤ 4096 ∧ d.page.length ≤ 4096) := by
        have : 4096 < max d.reach d.page.length := hreach
        omega
      have hcut := mt (finish_top h).mp hover
      have htop : ¬(w.finish 4096).1.top ≤ 4096 := hcut
      dsimp only
      omega

theorem copyFile_take : ∀ {room : Nat} {src : List UInt8} {start : Nat}, (copyFile room src start).1 = src.take (room + 1)
  | _, [], _ => by
    rw [List.take_nil]
    unfold copyFile
    rfl
  | 0, c :: src, start => rfl
  | room + 1, c :: src, start => congrArg (c :: ·) (@copyFile_take room src (start + 1))

theorem fparse_fills : Fills m dst (pageOf e file src) (httpFparse e m dst src file 0 4096) := by
  unfold pageOf httpFparse
  split
  · exact buildAt_fills fun step hm x => (sysstatus_titled e.ip e.mac step hm x).sound
  · split
    · exact buildAt_fills fun step hm x => (wifibase_exact e.user step hm x).sound
    · split
      · exact buildAt_fills fun step hm x => (wifinet_exact e.user e.wlWorkmode step hm x).sound
      · refine ⟨_, rfl, fun hreach => ?_, fun hreach => ?_⟩
        · have hcopy : (copyFile ((4096 : UInt32).toNat - 1) (src.drop 0) 0).1 = src := by
            rw [copyFile_take, List.drop_zero]
            exact List.take_of_length_le hreach
          rw [hcopy]
          refine ⟨holds_patch, fun x hx => patch_below hx, fun x hx => patch_above hx, rfl, ?_⟩
          exact (UInt32.toNat_ofNat' ..).trans (Nat.mod_eq_of_lt (by omega))
        · have hcopy : (copyFile ((4096 : UInt32).toNat - 1) (src.drop 0) 0).1.length = 4096 := by
            rw [copyFile_take, List.drop_zero, List.length_take]
            exact Nat.min_eq_left (Nat.le_of_lt hreach)
          rw [hcopy]

/-- What is known of a page, from its template. -/
structure PageFacts (src page : List UInt8) (reach : Nat) : Prop where
  longer : src.length ≤ page.length
  reach : page.length ≤ reach
  head : src ≠ [] → page.head? = src.head?
  zero : 0 ∉ src → 0 ∉ page

theorem draft_facts {steps : List Step} {digital : List UInt8} {d : Draft} (Q : List UInt8 → Prop)
    (hs : ∀ step ∈ steps, ∀ x, (step x).Sound) (hm : ∀ step ∈ steps, ∀ x, (step x).marker.length ≤ (step x).count)
    (hc : ∀ step ∈ steps, ∀ x, Q x → (step x).Clean ∧ Q ((step x).scratch.getD x)) (hq : Q digital)
    (h : draft steps digital src = some d) : PageFacts src (outline d).1 (outline d).2 := by
  have hlen := draft_length_le hs hm h
  have hclean := draft_clean Q hc (fun step hmem x => Nat.le_trans (hm step hmem x) (hs step hmem x).count) hq h
  have htake : (d.page.take (d.page.length - d.slack)).length = min (d.page.length - d.slack) d.page.length :=
    List.length_take
  refine ⟨?_, ?_, fun hne => ?_, fun h0 hp => hclean.1 h0 (List.mem_of_mem_take hp)⟩
  · rw [outline]
    dsimp only
    omega
  · rw [outline]
    dsimp only
    omega
  · have hpos := List.length_pos_iff.mpr hne
    rw [outline, ← hclean.2, List.head?_take, if_neg (by omega)]

theorem pageOf_facts (h : pageOf e file src = some (page, reach)) : PageFacts src page reach := by
  unfold pageOf at h
  split at h
  · obtain ⟨d, hd, he⟩ := Option.map_eq_some_iff.mp h
    have hfacts := draft_facts (fun _ => True) (fun step hm x => (sysstatus_titled e.ip e.mac step hm x).sound)
      (fun step hm x => Nat.le_of_eq (sysstatus_titled e.ip e.mac step hm x).count.symm)
      (fun step hm x _ => ⟨sysstatus_clean e.ip e.mac step hm x, trivial⟩) trivial hd
    rwa [he] at hfacts
  · split at h
    · obtain ⟨d, hd, he⟩ := Option.map_eq_some_iff.mp h
      have hexact := wifibase_exact e.user
      have hfacts := draft_facts (fun _ => True) (fun step hm x => (hexact step hm x).sound)
        (fun step hm x => (hexact step hm x).count ▸ (hexact step hm x).marker)
        (fun step hm x _ => ⟨wifibase_clean e.user step hm x, trivial⟩) trivial hd
      rwa [he] at hfacts
    · split at h
      · obtain ⟨d, hd, he⟩ := Option.map_eq_some_iff.mp h
        have hexact := wifinet_exact e.user e.wlWorkmode
        have hfacts := draft_facts Legible (fun step hm x => (hexact step hm x).sound)
          (fun step hm x => (hexact step hm x).count ▸ (hexact step hm x).marker)
          (wifinet_clean e.user e.wlWorkmode) (baudOption_legible _) hd
        rwa [he] at hfacts
      · cases h
        exact ⟨Nat.le_refl _, Nat.le_refl _, fun _ => rfl, fun h => h⟩

/-- Only the Wi-Fi and the serial page are longer than their templates. -/
theorem pageOf_length (h : pageOf e file src = some (page, reach)) (h3 : file ≠ 3) (h4 : file ≠ 4) :
    page.length = src.length := by
  unfold pageOf at h
  rw [if_neg h3, if_neg h4] at h
  split at h
  · obtain ⟨d, hd, he⟩ := Option.map_eq_some_iff.mp h
    have hlen := draft_length_eq (fun step hm x => (sysstatus_titled e.ip e.mac step hm x).sound)
      (fun step hm x => (sysstatus_titled e.ip e.mac step hm x).count) hd
    have htake : (outline d).1.length = min (d.page.length - d.slack) d.page.length := List.length_take
    rw [he] at htake
    dsimp only at htake
    omega
  · cases h
    rfl

/-- Behind a page built by exact counts lies at most the zero printed last. -/
theorem buildAt_behind {steps : List Step} {digital : List UInt8} {d : Draft} (hs : ∀ step ∈ steps, ∀ x, (step x).Exact)
    (hd : draft steps digital src = some d) (hfit : d.page.length ≤ 4096)
    (hp : buildAt (rebuild steps digital) m dst src 0 4096 = some p) :
    ∀ x, dst + (outline d).1.length ≤ x → p.mem x = m x ∨ p.mem x = 0 := by
  have hslack : d.slack = 0 := by
    refine @draft_keeps steps ⟨[], src, 0, 0, digital⟩ d (fun d => d.slack = 0) (fun step hm d d₁ h0 hins => ?_) rfl hd
    rcases insert_cases hins with rfl | ⟨before, after, form, -, -, rfl⟩
    · exact h0
    · have hcount := (hs step hm d.digital).count
      dsimp only
      omega
  have hlen : (outline d).1 = d.page := by
    rw [outline, hslack, Nat.sub_zero, List.take_length]
  have hsound : ∀ step ∈ steps, ∀ x, (step x).Sound := fun step hm x => (hs step hm x).sound
  rw [buildAt, List.drop_zero, rebuild] at hp
  rcases run_follows hsound (start_follows (fun x => m (dst + x)) src digital 4096) with ⟨hw, -⟩ | ⟨w, d', hw, hd', h⟩
  · rw [hw] at hp
    cases hp
  · rw [draft, hd'] at hd
    cases hd
    have hended : w.Ended := run_ended hs ⟨Nat.le_succ _, fun h => absurd h (Nat.lt_irrefl _)⟩ hw
    rw [hw] at hp
    cases hp
    have hsplit : d.page.length = d.text.length + d.rest.length := List.length_append
    have hleft := h.left (Nat.le_trans (by omega) hfit)
    have hrest : copyRest w.datalen w.mainstr = (d.rest, w.datalen - UInt32.ofNat d.rest.length) := by
      rw [h.mainstr]
      exact copyRest_all (by
        rw [hleft, show (4096 : UInt32).toNat = 4096 from rfl]
        omega)
    have hdst := h.dst
    intro x hx
    rw [hlen] at hx
    simp only [Writer.finish, hrest]
    rw [if_neg (by omega), patch_above (by omega)]
    by_cases htop : w.top ≤ x - dst
    · refine .inl ((h.frame _ htop).trans ?_)
      rw [show dst + (x - dst) = x by omega]
    · have hend := hended.top
      obtain hx' : x - dst = w.dst := by omega
      exact .inr (hx' ▸ hended.zero (by omega))

theorem fparse_behind (hfile : file = 3 ∨ file = 4) (h : pageOf e file src = some (page, reach)) (hreach : reach ≤ 4096)
    (hp : httpFparse e m dst src file 0 4096 = some p) : ∀ x, dst + page.length ≤ x → p.mem x = m x ∨ p.mem x = 0 := by
  unfold pageOf at h
  unfold httpFparse at hp
  rcases hfile with rfl | rfl
  · obtain ⟨d, hd, he⟩ := Option.map_eq_some_iff.mp h
    obtain ⟨rfl, rfl⟩ := Prod.mk.inj he
    exact buildAt_behind (wifibase_exact e.user) hd (Nat.le_trans (Nat.le_max_right _ _) hreach) hp
  · obtain ⟨d, hd, he⟩ := Option.map_eq_some_iff.mp h
    obtain ⟨rfl, rfl⟩ := Prod.mk.inj he
    exact buildAt_behind (wifinet_exact e.user e.wlWorkmode) hd (Nat.le_trans (Nat.le_max_right _ _) hreach) hp

end

/-! ## The header twice -/

theorem digits_mono {k n : Nat} (h : k ≤ n) : (digits k).length ≤ (digits n).length := by
  rw [digits, digits, List.length_map, List.length_map]
  have hpos : 0 < (Nat.toDigits 10 n).length := Nat.length_toDigits_pos
  have hn := (Nat.length_toDigits_le_iff (b := 10) (n := n) (by decide) hpos).mp (Nat.le_refl _)
  exact (Nat.length_toDigits_le_iff (by decide) hpos).mpr (Nat.lt_of_le_of_lt h hn)

theorem heading_length {text : List UInt8} {n : Nat} : (heading text n).length = text.length + (digits n).length + 4 := by
  rw [heading, List.length_append, List.length_append, show (bytes "\r\n\r\n").length = 4 by decide]

theorem headed_eq {text : List UInt8} {n : UInt32} (h : n.toNat < 2 ^ 31) : headed text n = heading text n.toNat := by
  have hint : n.toBitVec.toInt = Int.ofNat n.toNat := BitVec.toInt_eq_toNat_of_lt (by
    rw [UInt32.toNat_toBitVec]
    omega)
  rw [headed, hint]
  rfl

theorem digitsInt_length (n : UInt32) : (digitsInt n.toBitVec.toInt).length ≤ 11 := by
  have hbound : ∀ k : Nat, k ≤ 2 ^ 31 → (digits k).length ≤ 10 := fun k hk => by
    rw [digits, List.length_map, Nat.length_toDigits_le_iff (by decide) (by decide)]
    omega
  have hlow := n.toBitVec.le_toInt
  have hhigh := n.toBitVec.toInt_lt
  cases hi : n.toBitVec.toInt with
  | ofNat k =>
    rw [hi, Int.ofNat_eq_natCast] at hhigh
    exact Nat.le_succ_of_le (hbound k (by omega))
  | negSucc k =>
    rw [hi] at hlow
    exact Nat.succ_le_succ (hbound (k + 1) (by omega))

theorem headed_length {text : List UInt8} {n : UInt32} :
    text.length + 4 ≤ (headed text n).length ∧ (headed text n).length ≤ text.length + 15 := by
  have hlen : (headed text n).length = text.length + (digitsInt n.toBitVec.toInt).length + 4 := by
    rw [headed, List.length_append, List.length_append, show (bytes "\r\n\r\n").length = 4 by decide]
  have := digitsInt_length n
  omega

theorem holds_read {m : Nat → UInt8} {a n : Nat} {l : List UInt8} (h : Holds m a l) (hn : l.length = n) : read m a n = l := by
  subst hn
  refine List.ext_getElem length_read fun i hi hi' => ?_
  rw [getElem_read, h i hi']

/-- The header printed over the start of a page, whose first character is put back. -/
theorem holds_headed {m : Nat → UInt8} {head page : List UInt8} {c : UInt8} (h : Holds m head.length page)
    (hc : page.head? = some c) : Holds (patch (patch m 0 (head ++ [0])) head.length [c]) 0 (head ++ page) := by
  obtain ⟨rest, rfl⟩ := List.head?_eq_some_iff.mp hc
  refine holds_append.mpr ⟨fun i hi => ?_, ?_⟩
  · have hprinted := @patch_inside _ m 0 (head ++ [0]) i (by simp only [List.length_append]; omega)
    rw [Nat.zero_add] at hprinted ⊢
    rw [patch_below hi, hprinted, List.getElem_append_left hi]
  · rw [Nat.zero_add, holds_cons]
    refine ⟨@patch_inside _ _ head.length [c] 0 (by simp), fun i hi => ?_⟩
    have hbehind := (holds_cons.mp h).2 i hi
    rw [patch_above (by simp only [List.length_singleton]; omega),
      patch_above (by simp only [List.length_append, List.length_singleton]; omega), hbehind]

/-! ## A round of the loops -/

def htmlText : List UInt8 := (header .html).getD []

theorem htmlText_length : htmlText.length = 173 := by decide +kernel

section
variable {e : PageEnv} {src page : List UInt8} {s s' : Sender} {file fuel tx reach : Nat} {flen len fpos : UInt32}
  {fparse : Nat} {p : Parsed}

/-- The memory, the reach and the bytes sent of a round. -/
def round (s : Sender) (p : Parsed) : Sender :=
  let head := headed htmlText p.len
  let mem := patch (patch p.mem 0 (head ++ [0])) head.length [60]
  { mem := mem
    top := max (max (max s.top p.top) (0 + (head ++ [(0 : UInt8)]).length)) (head.length + 1)
    sent := s.sent ++ [read mem 0 (head.length + p.len.toNat)] }

theorem tcpSend_fits (h : len.toNat ≤ sendBufferSize) :
    s.tcpSend len = some { s with sent := s.sent ++ [read s.mem 0 len.toNat] } := if_pos h

theorem tcpSend_over (h : ¬len.toNat ≤ sendBufferSize) : s.tcpSend len = none := if_neg h

/-- A page no shorter than its template is sent in one round, unless more than `SendData` is to be sent. -/
theorem pageLoop_round (hp : httpFparse e s.mem tx src file 0 4096 = some p) (htx : tx < 2 ^ 32) (hlen : p.len.toNat ≤ 4096)
    (hflen : flen ≤ p.len) : pageLoop e src file flen (fuel + 1) s tx (UInt32.ofNat tx) 0 0 =
      if (headed htmlText p.len).length + p.len.toNat ≤ sendBufferSize then some (round s p) else none := by
  have hhead := @headed_length htmlText p.len
  rw [htmlText_length] at hhead
  have hback : tx - (UInt32.ofNat tx).toNat = 0 := by
    rw [UInt32.toNat_ofNat', Nat.mod_eq_of_lt htx, Nat.sub_self]
  have hsum : (UInt32.ofNat (headed htmlText p.len).length + p.len).toNat = (headed htmlText p.len).length + p.len.toNat := by
    rw [UInt32.toNat_add, UInt32.toNat_ofNat']
    omega
  have hpos : UInt32.ofNat (headed htmlText p.len).length + p.len ≠ 0 := fun h0 => by
    rw [h0] at hsum
    have : (0 : UInt32).toNat = 0 := rfl
    omega
  have hstop : ¬(0 + p.len < flen) := by
    rw [UInt32.zero_add]
    exact UInt32.not_lt.mpr hflen
  rw [pageLoop, hp, Option.bind_some]
  simp only [hback, Nat.zero_add, show (header .html).getD [] = htmlText from rfl, if_neg hpos]
  by_cases hfit : (headed htmlText p.len).length + p.len.toNat ≤ sendBufferSize
  · rw [if_pos hfit, tcpSend_fits (by rwa [hsum]), Option.bind_some, if_neg hstop, hsum, round]
    simp only [Sender.write, Sender.parsed, Nat.zero_add, List.length_singleton]
  · have hno := hfit
    rw [← hsum] at hno
    rw [if_neg hfit, tcpSend_over hno, Option.bind_none]

/-- Nothing that was written is taken back. -/
theorem pageLoop_top : ∀ {fuel : Nat} {s : Sender} {tx : Nat} {len fpos : UInt32} {fparse : Nat},
    pageLoop e src file flen fuel s tx len fpos fparse = some s' → s.top ≤ s'.top
  | 0, _, _, _, _, _, h => by cases h
  | fuel + 1, s, tx, len, fpos, fparse, h => by
    rw [pageLoop] at h
    obtain ⟨p, -, h⟩ := Option.bind_eq_some_iff.mp h
    dsimp only at h
    split at h
    · cases h
      simp only [Sender.write, Sender.parsed]
      omega
    · obtain ⟨s₁, hs₁, h⟩ := Option.bind_eq_some_iff.mp h
      rw [Sender.tcpSend] at hs₁
      split at hs₁
      · cases hs₁
        split at h
        · have htop := pageLoop_top h
          simp only [Sender.write, Sender.parsed] at htop
          omega
        · cases h
          simp only [Sender.write, Sender.parsed]
          omega
      · cases hs₁

theorem pageLoop_parsed {m : Nat → UInt8} {top : Nat} {sent : List (List UInt8)}
    (h : pageLoop e src file flen (fuel + 1) ⟨m, top, sent⟩ tx len fpos fparse = some s')
    (hp : httpFparse e m tx src file fparse 4096 = some p) : p.top ≤ s'.top := by
  rw [pageLoop, hp, Option.bind_some] at h
  dsimp only at h
  split at h
  · cases h
    simp only [Sender.write, Sender.parsed]
    omega
  · obtain ⟨s₁, hs₁, h⟩ := Option.bind_eq_some_iff.mp h
    rw [Sender.tcpSend] at hs₁
    split at hs₁
    · cases hs₁
      split at h
      · have htop := pageLoop_top h
        simp only [Sender.write, Sender.parsed] at htop
        omega
      · cases h
        simp only [Sender.write, Sender.parsed]
        omega
    · cases hs₁

end

/-! ## The pages are framed -/

section
variable {e : PageEnv} {content : Nat → List UInt8} {src page : List UInt8} {m : Nat → UInt8} {file fuel reach : Nat}

theorem httpSendfile_page (hfile : file < 5) (hlt : (content file).length < 2 ^ 32) (hne : content file ≠ []) :
    httpSendfile e content fuel (fileName file) m =
      let head := headed htmlText (UInt32.ofNat (content file).length)
      pageLoop e (content file) file (UInt32.ofNat (content file).length) fuel
        ⟨patch m 0 (head ++ [0]), max 0 (0 + (head ++ [(0 : UInt8)]).length), []⟩ head.length (UInt32.ofNat head.length) 0 0 := by
  have hin : file < httpfiles.length := Nat.lt_succ_of_lt hfile
  have hflen : httpFlen file (content file) = UInt32.ofNat (content file).length := if_pos hin
  have hpos : UInt32.ofNat (content file).length ≠ 0 := fun h0 => by
    have hval := congrArg UInt32.toNat h0
    rw [UInt32.toNat_ofNat', Nat.mod_eq_of_lt hlt] at hval
    exact hne (List.length_eq_zero_iff.mp hval)
  rw [httpSendfile, httpFid_name file hin]
  simp only [hflen, if_neg hpos, httpFtype_page file hfile]
  rfl

theorem page_sent (hfile : file < 5) (hlt : (content file).length < 2 ^ 32) (hne : content file ≠ [])
    (hpage : pageOf e file (content file) = some (page, reach)) (hreach : reach ≤ 4096) :
    ∃ p, Delivers p (patch m 0 (heading htmlText (content file).length ++ [0]))
        (heading htmlText (content file).length).length page reach ∧
      httpFparse e (patch m 0 (heading htmlText (content file).length ++ [0])) (heading htmlText (content file).length).length
        (content file) file 0 4096 = some p ∧
      ∀ fuel, httpSendfile e content (fuel + 1) (fileName file) m =
        if (heading htmlText page.length).length + page.length ≤ sendBufferSize then
          some (round ⟨patch m 0 (heading htmlText (content file).length ++ [0]),
            (heading htmlText (content file).length).length + 1, []⟩ p)
        else none := by
  have hfacts := pageOf_facts hpage
  have hlonger := hfacts.longer
  have hle := hfacts.reach
  have hlen : (UInt32.ofNat (content file).length).toNat = (content file).length := by
    rw [UInt32.toNat_ofNat', Nat.mod_eq_of_lt hlt]
  have hhead : headed htmlText (UInt32.ofNat (content file).length) = heading htmlText (content file).length := by
    rw [headed_eq (by omega), hlen]
  have hhlen := @headed_length htmlText (UInt32.ofNat (content file).length)
  rw [hhead, htmlText_length] at hhlen
  have hfills := @fparse_fills e (content file) (patch m 0 (heading htmlText (content file).length ++ [0]))
    (heading htmlText (content file).length).length file
  rw [hpage] at hfills
  obtain ⟨p, hp, hdel, -⟩ := hfills
  have hd := hdel hreach
  have hplen := hd.len
  refine ⟨p, hd, hp, fun fuel => ?_⟩
  rw [httpSendfile_page hfile hlt hne]
  simp only [hhead, List.length_append, List.length_singleton, Nat.zero_add, Nat.zero_max]
  have htx : (heading htmlText (content file).length).length < 2 ^ 32 := by omega
  have hfit : p.len.toNat ≤ 4096 := by omega
  have hflen : UInt32.ofNat (content file).length ≤ p.len := UInt32.le_iff_toNat_le.mpr (by omega)
  generalize hs : (⟨patch m 0 (heading htmlText (content file).length ++ [0]),
    (heading htmlText (content file).length).length + 1, []⟩ : Sender) = s
  have hmem : s.mem = patch m 0 (heading htmlText (content file).length ++ [0]) := by rw [← hs]
  rw [← hmem] at hp
  have hround := @pageLoop_round e (content file) s file fuel _ _ p hp htx hfit hflen
  rw [headed_eq (by omega), hplen] at hround
  exact hround

theorem delivered_page (hfile : file < 5) : delivered e file src =
    (httpFparse e (fun _ => 0) 0 src file 0 4096).map fun p => read p.mem 0 p.len.toNat := by
  rw [delivered, httpFtype_page file hfile]

theorem delivered_fits (hfile : file < 5) (hpage : pageOf e file src = some (page, reach)) (hreach : reach ≤ 4096) :
    delivered e file src = some page := by
  have hfills := @fparse_fills e src (fun _ => 0) 0 file
  rw [hpage] at hfills
  obtain ⟨p, hp, hdel, -⟩ := hfills
  have hd := hdel hreach
  rw [delivered_page hfile, hp, Option.map_some, holds_read hd.text hd.len.symm]

theorem framed_text (hfile : file < 5) {text : List UInt8} (h : header (httpFtype file) = some text) : text = htmlText := by
  rw [httpFtype_page file hfile] at h
  exact (Option.some.inj h).symm

/-- The header is as long both times: the page follows it. -/
theorem round_sent {s : Sender} {p : Parsed} (hs : s.sent = []) (hlt : p.len.toNat < 2 ^ 31) (hlen : p.len.toNat = page.length)
    (htext : Holds p.mem (heading htmlText page.length).length page) (hhead : page.head? = some 60) :
    (round s p).sent.flatten = heading htmlText page.length ++ page := by
  have hheaded : headed htmlText p.len = heading htmlText page.length := by rw [headed_eq hlt, hlen]
  simp only [round, hs, hheaded, hlen, List.nil_append, List.flatten_cons, List.flatten_nil, List.append_nil]
  exact holds_read (holds_headed htext hhead) List.length_append

/-- The header is longer the second time: what is sent ends in a zero. -/
theorem round_shifted {s : Sender} {p : Parsed} (hs : s.sent = []) (hlt : p.len.toNat < 2 ^ 31)
    (hlen : p.len.toNat = page.length) (hpos : 1 < page.length) (hzero : 0 ∉ page)
    (hbehind : p.mem ((heading htmlText page.length).length + page.length - 1) = 0) :
    (round s p).sent.flatten ≠ heading htmlText page.length ++ page := by
  have hheaded : headed htmlText p.len = heading htmlText page.length := by rw [headed_eq hlt, hlen]
  simp only [round, hs, hheaded, hlen, List.nil_append, List.flatten_cons, List.flatten_nil, List.append_nil]
  intro heq
  have hlast := congrArg (fun l => l[(heading htmlText page.length).length + (page.length - 1)]?) heq
  rw [List.getElem?_append_right (by omega), Nat.add_sub_cancel_left,
    List.getElem?_eq_getElem (by simp only [length_read]; omega), getElem_read, Nat.zero_add,
    patch_above (by simp only [List.length_singleton]; omega),
    patch_above (by simp only [List.length_append, List.length_singleton]; omega),
    show (heading htmlText page.length).length + (page.length - 1) = (heading htmlText page.length).length + page.length - 1 by
      omega, hbehind] at hlast
  exact hzero (List.mem_of_getElem? hlast.symm)

theorem round_top {s : Sender} {p : Parsed} : (round s p).top =
    max (max (max s.top p.top) ((headed htmlText p.len).length + 1)) ((headed htmlText p.len).length + 1) := by
  simp only [round, List.length_append, List.length_singleton, Nat.zero_add]

/-- The page of a file, which begins with `<` and has no zero. -/
structure PageFile (content : Nat → List UInt8) (file : Nat) : Prop where
  page : file < 5
  length : (content file).length < 2 ^ 32
  head : (content file).head? = some 60
  zero : 0 ∉ content file

theorem PageFile.ne_nil (h : PageFile content file) : content file ≠ [] := fun hnil => by
  have hhead := h.head
  rw [hnil] at hhead
  cases hhead

theorem framed_fits (h : PageFile content file) (hpage : pageOf e file (content file) = some (page, reach))
    (hfit : (heading htmlText (content file).length).length + reach ≤ sendBufferSize)
    (hdigits : (digits page.length).length = (digits (content file).length).length) : Framed e content file m := by
  have hsize : sendBufferSize = 4096 := rfl
  have hfacts := pageOf_facts hpage
  have hle := hfacts.reach
  have hlonger := hfacts.longer
  have hpos := List.length_pos_iff.mpr h.ne_nil
  have hlen₀ := @heading_length htmlText (content file).length
  have hlen₁ := @heading_length htmlText page.length
  obtain ⟨p, hd, hp, hrun⟩ := @page_sent e content page m file reach h.page h.length h.ne_nil hpage (by omega)
  have hplen := hd.len
  have hptop := hd.top
  have hheaded : headed htmlText p.len = heading htmlText page.length := by rw [headed_eq (by omega), hplen]
  have hsame : (heading htmlText page.length).length = (heading htmlText (content file).length).length := by omega
  refine ⟨1, _, htmlText, page, (hrun 0).trans (if_pos (by omega)), ?_, delivered_fits h.page hpage (by omega), ?_, ?_⟩
  · rw [httpFtype_page file h.page]
    rfl
  · rw [round_top, hptop, hheaded]
    dsimp only
    omega
  · refine round_sent rfl (by omega) hplen ?_ ((hfacts.head h.ne_nil).trans h.head)
    rw [hsame]
    exact hd.text

theorem framed_digits (h : PageFile content file) (hpage : pageOf e file (content file) = some (page, reach))
    (hreach : reach ≤ 4096) (hm : ∀ x, x < sendBufferSize → m x = 0) (hframed : Framed e content file m) :
    (heading htmlText (content file).length).length + reach ≤ sendBufferSize ∧
      (digits page.length).length = (digits (content file).length).length := by
  have hsize : sendBufferSize = 4096 := rfl
  have hfacts := pageOf_facts hpage
  have hle := hfacts.reach
  have hlonger := hfacts.longer
  have hpos := List.length_pos_iff.mpr h.ne_nil
  have hlen₀ := @heading_length htmlText (content file).length
  have hlen₁ := @heading_length htmlText page.length
  obtain ⟨p, hd, hp, hrun⟩ := @page_sent e content page m file reach h.page h.length h.ne_nil hpage hreach
  have hplen := hd.len
  have hptop := hd.top
  obtain ⟨fuel, s, text, page', hs, htext, hdel, htop, hsent⟩ := hframed
  obtain rfl := framed_text h.page htext
  rw [delivered_fits h.page hpage hreach] at hdel
  cases hdel
  cases fuel with
  | zero =>
    rw [httpSendfile_page h.page h.length h.ne_nil] at hs
    cases hs
  | succ fuel =>
    rw [hrun] at hs
    by_cases hfit : (heading htmlText page.length).length + page.length ≤ sendBufferSize
    · rw [if_pos hfit] at hs
      cases hs
      rw [round_top, hptop] at htop
      refine ⟨by omega, ?_⟩
      by_contra hdiff
      have hmono := digits_mono hlonger
      have hfile : file = 3 ∨ file = 4 := by
        by_contra hno
        rw [not_or] at hno
        exact hdiff (congrArg (fun n => (digits n).length) (pageOf_length hpage hno.1 hno.2))
      have hne : (content file).length ≠ page.length := fun h => hdiff (by rw [h])
      refine round_shifted rfl (by omega) hplen (by omega) (hfacts.zero h.zero) ?_ hsent
      -- behind the page lies the zero printed last, or what was there
      rcases fparse_behind hfile hpage hreach hp ((heading htmlText page.length).length + page.length - 1) (by omega) with
        hx | hx
      · rw [hx, patch_above (by simp only [List.length_append, List.length_singleton]; omega)]
        exact hm _ (by omega)
      · exact hx
    · rw [if_neg hfit] at hs
      cases hs

theorem framed_reach (h : PageFile content file) (hpage : pageOf e file (content file) = some (page, reach))
    (hframed : Framed e content file m) : reach ≤ 4096 := by
  by_contra hreach
  have hsize : sendBufferSize = 4096 := rfl
  obtain ⟨fuel, s, text, page', hs, -, -, htop, -⟩ := hframed
  rw [httpSendfile_page h.page h.length h.ne_nil] at hs
  cases fuel with
  | zero => cases hs
  | succ fuel =>
    have hhead := @headed_length htmlText (UInt32.ofNat (content file).length)
    have hfills := @fparse_fills e (content file)
      (patch m 0 (headed htmlText (UInt32.ofNat (content file).length) ++ [0]))
      (headed htmlText (UInt32.ofNat (content file).length)).length file
    rw [hpage] at hfills
    obtain ⟨p, hp, -, hover⟩ := hfills
    have hover' := hover (by omega)
    dsimp only at hs
    have hparsed := pageLoop_parsed hs hp
    omega

theorem framed_page (h : PageFile content file) (hm : ∀ x, x < sendBufferSize → m x = 0) : Framed e content file m ↔
    ∃ page reach, pageOf e file (content file) = some (page, reach) ∧
      (heading htmlText (content file).length).length + reach ≤ sendBufferSize ∧
      (digits page.length).length = (digits (content file).length).length := by
  cases hpage : pageOf e file (content file) with
  | none =>
    refine iff_of_false (fun ⟨_, _, _, _, _, _, hdel, _⟩ => ?_) fun ⟨_, _, h, _⟩ => nomatch h
    have hfills := @fparse_fills e (content file) (fun _ => 0) 0 file
    rw [hpage] at hfills
    have hnone : httpFparse e (fun _ => 0) 0 (content file) file 0 4096 = none := hfills
    rw [delivered_page h.page, hnone] at hdel
    cases hdel
  | some r =>
    obtain ⟨page, reach⟩ := r
    constructor
    · intro hframed
      exact ⟨page, reach, rfl, framed_digits h hpage (framed_reach h hpage hframed) hm hframed⟩
    · rintro ⟨page', reach', he, hfit, hdigits⟩
      cases he
      exact framed_fits h hpage hfit hdigits

end

/-! ## The style sheet is framed -/

def cssText : List UInt8 := (header .css).getD []

theorem cssText_length : cssText.length = 141 := by decide +kernel

section
variable {e : PageEnv} {content : Nat → List UInt8} {src : List UInt8} {m : Nat → UInt8} {dst fuel tx top : Nat}
  {flen len fpos : UInt32} {s' : Sender} {sent : List (List UInt8)}

theorem fdata_fits (h : src.length ≤ 4096) :
    httpFdata m dst src 0 4096 = ⟨patch m dst src, dst + src.length, UInt32.ofNat src.length, 0⟩ := by
  have hlen : (UInt32.ofNat src.length).toNat = src.length := by
    rw [UInt32.toNat_ofNat', Nat.mod_eq_of_lt (by omega)]
  have hn : (if 0 + 4096 > UInt32.ofNat src.length then UInt32.ofNat src.length - 0 else 4096) = UInt32.ofNat src.length := by
    split
    · exact UInt32.sub_zero _
    · rename_i hge
      have hle : (0 + 4096 : UInt32).toNat ≤ (UInt32.ofNat src.length).toNat :=
        UInt32.le_iff_toNat_le.mp (UInt32.not_lt.mp hge)
      have h4096 : (0 + 4096 : UInt32).toNat = 4096 := rfl
      refine UInt32.toNat_inj.mp ?_
      show 4096 = _
      omega
  have htake : (src.drop (0 : UInt32).toNat).take src.length = src := List.take_length
  rw [httpFdata]
  simp only [hn, hlen, htake]
  rfl

theorem fdata_over (hlt : src.length < 2 ^ 32) (h : 4096 < src.length) : (httpFdata m dst src 0 4096).top = dst + 4096 := by
  have hlen : (UInt32.ofNat src.length).toNat = src.length := by
    rw [UInt32.toNat_ofNat', Nat.mod_eq_of_lt hlt]
  have hno : ¬(0 + 4096 > UInt32.ofNat src.length) := UInt32.not_lt.mpr (UInt32.le_iff_toNat_le.mpr (by
    rw [hlen]
    exact Nat.le_of_lt h))
  have htake : ((src.drop (0 : UInt32).toNat).take (4096 : UInt32).toNat).length = 4096 := by
    show (src.take 4096).length = 4096
    rw [List.length_take]
    omega
  rw [httpFdata]
  simp only [if_neg hno, htake]

theorem dataLoop_top : ∀ {fuel : Nat} {s : Sender} {tx : Nat} {len fpos : UInt32},
    dataLoop src flen fuel s tx len fpos = some s' → s.top ≤ s'.top := by
  intro fuel
  induction fuel with
  | zero =>
    intro s tx len fpos h
    cases h
  | succ fuel ih =>
    intro s tx len fpos h
    rw [dataLoop] at h
    generalize httpFdata s.mem tx src fpos 4096 = p at h
    split at h
    · cases h
      exact Nat.le_max_left _ _
    · obtain ⟨s₁, hs₁, h⟩ := Option.bind_eq_some_iff.mp h
      rw [Sender.tcpSend] at hs₁
      split at hs₁
      · cases hs₁
        split at h
        · exact Nat.le_trans (Nat.le_max_left _ _) (ih h)
        · cases h
          exact Nat.le_max_left _ _
      · cases hs₁

theorem dataLoop_parsed (h : dataLoop src flen (fuel + 1) ⟨m, top, sent⟩ tx len fpos = some s') :
    (httpFdata m tx src fpos 4096).top ≤ s'.top := by
  rw [dataLoop] at h
  generalize httpFdata m tx src fpos 4096 = p at h ⊢
  split at h
  · cases h
    exact Nat.le_max_right _ _
  · obtain ⟨s₁, hs₁, h⟩ := Option.bind_eq_some_iff.mp h
    rw [Sender.tcpSend] at hs₁
    split at hs₁
    · cases hs₁
      split at h
      · exact Nat.le_trans (Nat.le_max_right _ _) (dataLoop_top h)
      · cases h
        exact Nat.le_max_right _ _
    · cases hs₁

theorem httpSendfile_css (hlt : (content 5).length < 2 ^ 32) (hne : content 5 ≠ []) :
    httpSendfile e content fuel (fileName 5) m =
      let head := headed cssText (UInt32.ofNat (content 5).length)
      dataLoop (content 5) (UInt32.ofNat (content 5).length) fuel
        ⟨patch m 0 (head ++ [0]), max 0 (0 + (head ++ [(0 : UInt8)]).length), []⟩ head.length (UInt32.ofNat head.length) 0 := by
  have hin : 5 < httpfiles.length := by decide
  have hflen : httpFlen 5 (content 5) = UInt32.ofNat (content 5).length := if_pos hin
  have hpos : UInt32.ofNat (content 5).length ≠ 0 := fun h0 => by
    have hval := congrArg UInt32.toNat h0
    rw [UInt32.toNat_ofNat', Nat.mod_eq_of_lt hlt] at hval
    exact hne (List.length_eq_zero_iff.mp hval)
  rw [httpSendfile, httpFid_name 5 hin]
  simp only [hflen, if_neg hpos, show httpFtype 5 = .css from rfl]
  rfl

theorem css_sent (hne : content 5 ≠ [])
    (hfit : (heading cssText (content 5).length).length + (content 5).length ≤ sendBufferSize) :
    Framed e content 5 m := by
  have hsize : sendBufferSize = 4096 := rfl
  have hpos := List.length_pos_iff.mpr hne
  have hlen : (UInt32.ofNat (content 5).length).toNat = (content 5).length := by
    rw [UInt32.toNat_ofNat', Nat.mod_eq_of_lt (by omega)]
  have hhead : headed cssText (UInt32.ofNat (content 5).length) = heading cssText (content 5).length := by
    rw [headed_eq (by omega), hlen]
  have hsum : (UInt32.ofNat (heading cssText (content 5).length).length + UInt32.ofNat (content 5).length).toNat =
      (heading cssText (content 5).length).length + (content 5).length := by
    rw [UInt32.toNat_add, UInt32.toNat_ofNat', hlen]
    omega
  have hsum0 : UInt32.ofNat (heading cssText (content 5).length).length + UInt32.ofNat (content 5).length ≠ 0 := fun h0 => by
    rw [h0] at hsum
    have : (0 : UInt32).toNat = 0 := rfl
    omega
  have hstop : ¬(0 + UInt32.ofNat (content 5).length < UInt32.ofNat (content 5).length) := by
    rw [UInt32.zero_add]
    exact UInt32.lt_irrefl _
  have hrun := @httpSendfile_css e content m 1 (by omega) hne
  simp only [hhead, dataLoop, fdata_fits (show (content 5).length ≤ 4096 by omega), Sender.parsed, if_neg hsum0] at hrun
  rw [tcpSend_fits (by omega), Option.bind_some, if_neg hstop] at hrun
  have hdel : delivered e 5 (content 5) = some (content 5) := by
    show some (read (httpFdata (fun _ => 0) 0 (content 5) 0 4096).mem 0
      (httpFdata (fun _ => 0) 0 (content 5) 0 4096).len.toNat) = _
    rw [fdata_fits (by omega), hlen, holds_read holds_patch rfl]
  refine ⟨1, _, cssText, content 5, hrun, rfl, hdel, ?_, ?_⟩
  · simp only [List.length_append, List.length_singleton]
    omega
  · simp only [hsum, List.nil_append, List.flatten_cons, List.flatten_nil, List.append_nil]
    refine holds_read (holds_append.mpr ⟨fun i hi => ?_, ?_⟩) List.length_append
    · have hprinted := @patch_inside _ m 0 (heading cssText (content 5).length ++ [0]) i
        (by simp only [List.length_append]; omega)
      rw [Nat.zero_add] at hprinted ⊢
      rw [patch_below hi, hprinted, List.getElem_append_left hi]
    · rw [Nat.zero_add]
      exact holds_patch

/-- Of an empty style sheet the client is told that it is not found. -/
theorem css_missing (h : content 5 = []) : ¬Framed e content 5 m := by
  rintro ⟨fuel, s, text, page, hs, htext, hdel, -, hsent⟩
  obtain rfl : cssText = text := Option.some.inj htext
  have hsend : httpSendfile e content fuel (fileName 5) m =
      ((⟨m, 0, []⟩ : Sender).write 0 (notFound ++ [0])).tcpSend (UInt32.ofNat notFound.length) := by
    rw [httpSendfile, httpFid_name 5 (by decide), h]
    rfl
  have hshort : (UInt32.ofNat notFound.length).toNat = 83 := by decide +kernel
  rw [hsend, tcpSend_fits (hshort ▸ by decide)] at hs
  cases hs
  have hlen := congrArg List.length hsent
  have hcss := @heading_length cssText page.length
  have htext := cssText_length
  simp only [Sender.write, hshort, List.nil_append, List.flatten_cons, List.flatten_nil, List.append_nil, length_read,
    List.length_append] at hlen
  omega

theorem css_fits (hlt : (content 5).length < 2 ^ 32) (hne : content 5 ≠ []) (hframed : Framed e content 5 m) :
    (heading cssText (content 5).length).length + (content 5).length ≤ sendBufferSize := by
  have hsize : sendBufferSize = 4096 := rfl
  have htext := cssText_length
  obtain ⟨fuel, s, text, page, hs, -, -, htop, -⟩ := hframed
  rw [httpSendfile_css hlt hne] at hs
  have hhead := @headed_length cssText (UInt32.ofNat (content 5).length)
  cases fuel with
  | zero => cases hs
  | succ fuel =>
    have hparsed := dataLoop_parsed hs
    by_cases hshort : (content 5).length ≤ 4096
    · have hheaded : headed cssText (UInt32.ofNat (content 5).length) = heading cssText (content 5).length := by
        rw [headed_eq (by rw [UInt32.toNat_ofNat']; omega), UInt32.toNat_ofNat', Nat.mod_eq_of_lt hlt]
      rw [fdata_fits hshort, hheaded] at hparsed
      dsimp only at hparsed
      omega
    · rw [fdata_over hlt (by omega)] at hparsed
      omega

end

/-! ## Every file of the table -/

section
variable {e : PageEnv} {content : Nat → List UInt8} {m : Nat → UInt8} {file : Nat}

/-- A file is framed exactly when it is not empty, the bytes `http_fparse` writes of it fit behind the header of
its template, and the lengths of the page and the template have as many digits. -/
theorem http_framing (hfile : file < httpfiles.length) (hlt : (content file).length < 2 ^ 32)
    (hhtml : httpFtype file = .html → (content file).head? = some 60 ∧ 0 ∉ content file)
    (hm : ∀ x, x < sendBufferSize → m x = 0) : Framed e content file m ↔
      content file ≠ [] ∧ ∃ text page reach, header (httpFtype file) = some text ∧
        pageOf e file (content file) = some (page, reach) ∧
        (heading text (content file).length).length + reach ≤ sendBufferSize ∧
        (digits page.length).length = (digits (content file).length).length := by
  have hcount : httpfiles.length = 6 := rfl
  by_cases hpage : file < 5
  · have hinput := hhtml (httpFtype_page file hpage)
    have hp : PageFile content file := ⟨hpage, hlt, hinput.1, hinput.2⟩
    rw [framed_page hp hm]
    constructor
    · rintro ⟨page, reach, hof, hfit, hdigits⟩
      exact ⟨hp.ne_nil, htmlText, page, reach, by rw [httpFtype_page file hpage]; rfl, hof, hfit, hdigits⟩
    · rintro ⟨-, text, page, reach, htext, hof, hfit, hdigits⟩
      obtain rfl := framed_text hpage htext
      exact ⟨page, reach, hof, hfit, hdigits⟩
  · obtain rfl : file = 5 := by omega
    constructor
    · intro hframed
      have hne : content 5 ≠ [] := fun h => css_missing h hframed
      exact ⟨hne, cssText, content 5, (content 5).length, rfl, rfl, css_fits hlt hne hframed, rfl⟩
    · rintro ⟨hne, text, page, reach, htext, hof, hfit, -⟩
      cases htext
      cases hof
      exact css_sent hne hfit

end

def factoryPages : PageEnv := ⟨initFactoryParam (.replicate 6 0), 0, defaultIpCfg.ip, .replicate 6 0⟩

/-- A small login page is sent behind its header. -/
theorem http_framing_login : Framed factoryPages (fun _ => bytes "<html></html>") 1 fun _ => 0 := by
  have hone := @http_framing factoryPages (fun _ => bytes "<html></html>") (fun _ => 0) 1 (by decide) (by decide +kernel)
    (fun _ => ⟨by decide, by decide⟩) fun _ _ => rfl
  exact hone.mpr ⟨by decide, htmlText, bytes "<html></html>", 13, rfl, rfl, by
    rw [heading_length, htmlText_length]
    decide, rfl⟩

/-- A page of 4000 bytes, allowed for, does not fit in `SendData` behind its header. -/
theorem http_framing_overrun : ¬Framed factoryPages (fun _ => 60 :: List.replicate 3999 65) 0 fun _ => 0 := by
  have hlen : (60 :: List.replicate 3999 (65 : UInt8)).length = 4000 := by
    rw [List.length_cons, List.length_replicate]
  have hpage : PageFile (fun _ => 60 :: List.replicate 3999 65) 0 :=
    ⟨by decide, by rw [hlen]; decide, rfl, fun h0 => by
      rcases List.mem_cons.mp h0 with h0 | h0
      · cases h0
      · cases List.eq_of_mem_replicate h0⟩
  rw [framed_page hpage fun _ _ => rfl]
  rintro ⟨page, reach, hof, hfit, -⟩
  have hreach : (60 :: List.replicate 3999 (65 : UInt8)).length = reach := congrArg Prod.snd (Option.some.inj hof)
  have hsize : sendBufferSize = 4096 := rfl
  have htext := htmlText_length
  rw [heading_length] at hfit
  omega

end SerialNet.Http
