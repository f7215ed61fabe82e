import Mathlib.Data.List.Basic

/-!
# Form fields of a page

What a browser submits for a page: a reader that goes over the bytes once and
gives out the fields in page order, and the URL encoding of a form.
`Reads` composes along the page.
-/

namespace SerialNet.Html

abbrev Field := List UInt8 × List UInt8

/-! ## The reader -/

inductive Mode where
  | text
  | tagName (name : List UInt8)
  | attrs (name : List UInt8)
  | quoted (name value : List UInt8)
  deriving DecidableEq, Repr

/-- `tag` and `name` belong to the open tag, the others to the open `select`. -/
structure Reader where
  mode : Mode
  tag : List UInt8
  name : List UInt8
  select : List UInt8
  first : Option (List UInt8)
  option : List UInt8
  chosen : Option (List UInt8)
  deriving DecidableEq, Repr

def start : Reader := ⟨.text, [], [], [], none, [], none⟩

def inputTag : List UInt8 := [105, 110, 112, 117, 116]
def selectTag : List UInt8 := [115, 101, 108, 101, 99, 116]
def optionTag : List UInt8 := [111, 112, 116, 105, 111, 110]
def nameAttr : List UInt8 := [110, 97, 109, 101]
def valueAttr : List UInt8 := [118, 97, 108, 117, 101]
def selectedAttr : List UInt8 := [115, 101, 108, 101, 99, 116, 101, 100]

def closeTag (r : Reader) (tag : List UInt8) : Reader :=
  if tag = selectTag then { r with mode := .text, select := r.name, first := none, option := [], chosen := none }
  else if tag = 47 :: selectTag then { r with mode := .text, select := [], first := none, option := [], chosen := none }
  else { r with mode := .text }

def closeAttr (r : Reader) (attr value : List UInt8) : Reader :=
  let r := { r with mode := .attrs [] }
  if attr = nameAttr then { r with name := value }
  else if r.tag = optionTag then
    if attr = valueAttr then { r with option := value, first := r.first.or (some value) }
    else if attr = selectedAttr then { r with chosen := some r.option }
    else r
  else r

def step (r : Reader) (c : UInt8) : Reader :=
  match r.mode with
  | .text => if c = 60 then { r with mode := .tagName [], tag := [], name := [] } else r
  | .tagName t =>
    if c = 62 then closeTag r t
    else if c = 32 then { r with mode := .attrs [], tag := t }
    else { r with mode := .tagName (t ++ [c]) }
  | .attrs a =>
    if c = 62 then closeTag r r.tag
    else if c = 34 then { r with mode := .quoted a [] }
    else if c = 32 then { r with mode := .attrs [] }
    else if c = 61 then r
    else { r with mode := .attrs (a ++ [c]) }
  | .quoted a v => if c = 34 then closeAttr r a v else { r with mode := .quoted a (v ++ [c]) }

/-- The value of an `input` is submitted where it ends, its name standing
before it. A `select` submits its last selected option, or else its first. -/
def emit (r : Reader) (c : UInt8) : List Field :=
  match r.mode with
  | .tagName t => if c = 62 ∧ t = 47 :: selectTag then [(r.select, (r.chosen.or r.first).getD [])] else []
  | .quoted a v => if c = 34 ∧ a = valueAttr ∧ r.tag = inputTag then [(r.name, v)] else []
  | _ => []

def fields : Reader → List UInt8 → List Field
  | _, [] => []
  | r, c :: s => emit r c ++ fields (step r c) s

def formFields (page : List UInt8) : List Field := fields start page

/-! ## Reading piece by piece -/

/-- From `r` the reader gives out `l` on the piece and is then at `r'`. -/
structure Reads (r : Reader) (s : List UInt8) (l : List Field) (r' : Reader) : Prop where
  gives : fields r s = l
  leaves : s.foldl step r = r'

instance {r : Reader} {s : List UInt8} {l : List Field} {r' : Reader} : Decidable (Reads r s l r') :=
  decidable_of_iff (fields r s = l ∧ s.foldl step r = r') ⟨fun h => ⟨h.1, h.2⟩, fun h => ⟨h.1, h.2⟩⟩

theorem Reads.refl (r : Reader) : Reads r [] [] r := ⟨rfl, rfl⟩

theorem fields_append (r : Reader) (s t : List UInt8) : fields r (s ++ t) = fields r s ++ fields (s.foldl step r) t := by
  induction s generalizing r with
  | nil => rfl
  | cons c s ih => rw [List.cons_append, fields, fields, ih, List.append_assoc, List.foldl_cons]

theorem Reads.append {r r' r'' : Reader} {s t : List UInt8} {l m : List Field} (h : Reads r s l r')
    (h' : Reads r' t m r'') : Reads r (s ++ t) (l ++ m) r'' := by
  constructor
  · rw [fields_append, h.gives, h.leaves, h'.gives]
  · rw [List.foldl_append, h.leaves, h'.leaves]

def inValue (name v : List UInt8) : Reader :=
  { start with mode := .quoted valueAttr v, tag := inputTag, name := name }

def behindValue (name : List UInt8) : Reader := { start with mode := .attrs [], tag := inputTag, name := name }

theorem Reads.value {name v s : List UInt8} (h : ∀ c ∈ s, c ≠ 34) : Reads (inValue name v) s [] (inValue name (v ++ s)) := by
  induction s generalizing v with
  | nil =>
    rw [List.append_nil]
    exact .refl _
  | cons c s ih =>
    have hc : c ≠ 34 := h c List.mem_cons_self
    have hstep : step (inValue name v) c = inValue name (v ++ [c]) := by simp [step, inValue, hc]
    have hemit : emit (inValue name v) c = [] := by simp [emit, inValue, hc]
    obtain ⟨hf, ha⟩ := @ih (v ++ [c]) fun d hd => h d (List.mem_cons_of_mem _ hd)
    constructor
    · rw [fields, hemit, hstep, hf]
      rfl
    · rw [List.foldl_cons, hstep, ha, List.append_assoc]
      rfl

theorem Reads.quote {name v s : List UInt8} {l : List Field} {r : Reader} (h : Reads (behindValue name) s l r) :
    Reads (inValue name v) (34 :: s) ((name, v) :: l) r := by
  have hstep : step (inValue name v) 34 = behindValue name := rfl
  constructor
  · rw [fields, hstep, h.gives]
    rfl
  · rw [List.foldl_cons, hstep, h.leaves]

/-! ## URL encoding -/

def isAlnum (c : UInt8) : Bool := (48 ≤ c && c ≤ 57) || (65 ≤ c && c ≤ 90) || (97 ≤ c && c ≤ 122)

def isPlain (c : UInt8) : Bool := isAlnum c || c == 42 || c == 45 || c == 46 || c == 95

def hexUpper (x : UInt8) : UInt8 := if x < 10 then 48 + x else 55 + x

def encodeByte (c : UInt8) : List UInt8 :=
  if isPlain c then [c] else if c = 32 then [43] else [37, hexUpper (c / 16), hexUpper (c % 16)]

def urlEncode (s : List UInt8) : List UInt8 := s.flatMap encodeByte

/-- `name=value` for each field, with `&` between them. -/
def formBody : List Field → List UInt8
  | [] => []
  | [f] => urlEncode f.1 ++ 61 :: urlEncode f.2
  | f :: fs => urlEncode f.1 ++ 61 :: urlEncode f.2 ++ 38 :: formBody fs

theorem urlEncode_plain {s : List UInt8} (h : s.all isPlain = true) : urlEncode s = s := by
  induction s with
  | nil => rfl
  | cons c s ih =>
    simp only [List.all_cons, Bool.and_eq_true] at h
    rw [urlEncode, List.flatMap_cons, encodeByte, if_pos h.1]
    exact congrArg (c :: ·) (ih h.2)

theorem formBody_cons {f : Field} {fs : List Field} (hn : f.1.all isPlain = true) (hv : f.2.all isPlain = true)
    (hfs : fs ≠ []) : formBody (f :: fs) = f.1 ++ 61 :: f.2 ++ 38 :: formBody fs := by
  cases fs with
  | nil => exact absurd rfl hfs
  | cons g fs => rw [formBody, urlEncode_plain hn, urlEncode_plain hv]; simp

end SerialNet.Html
