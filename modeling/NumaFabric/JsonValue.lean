import NumaFabric.CoreTypes

/-! The JSON value model of explanations and its writer, compact and indented. -/
namespace NumaFabric
open Std

/-- The conversions of `double` that the value model uses; they belong to the language
and its library. -/
structure Doubles (D : Type) where
  eq : D → D → Bool
  /-- `static_cast<double>` of an `int64_t`. -/
  ofInt64 : ℤ → D
  /-- `static_cast<int64_t>`. -/
  toInt64 : D → ℤ
  /-- `os << d`. -/
  print : D → ByteString
  /-- `std::stod`; `none` is a throw. -/
  stod : ByteString → Option D

/-- A `std::map` is the list of its entries, in the order of their keys. -/
inductive Json (D : Type)
  | null
  | bool (b : Bool)
  | number (d : D)
  | string (s : ByteString)
  | array (a : List (Json D))
  | object (o : List (ByteString × Json D))

namespace Json
variable {κ β : Type} [LT κ] [DecidableLT κ]

/-- `o[key] = value` on a `std::map`. -/
def assign (k : κ) (v : β) : List (κ × β) → List (κ × β)
  | [] => [(k, v)]
  | (j, w) :: o =>
    if k < j then (k, v) :: (j, w) :: o
    else if j < k then (j, w) :: assign k v o
    else (k, v) :: o

/-- The map that a sequence of assignments builds. -/
def collect (ms : List (κ × β)) : List (κ × β) := ms.foldl (fun o m => assign m.1 m.2 o) []

def Ascending (o : List (κ × β)) : Prop := o.Pairwise fun a b => a.1 < b.1

instance (o : List (κ × β)) : Decidable (Ascending o) :=
  inferInstanceAs (Decidable (o.Pairwise fun a b => a.1 < b.1))

section Ascending
variable [Asymm (α := κ) (· < ·)]

theorem assign_last {k : κ} {v : β} {o : List (κ × β)} (h : ∀ e ∈ o, e.1 < k) :
    assign k v o = o ++ [(k, v)] := by
  induction o with
  | nil => rfl
  | cons e o ih =>
    have below := h e List.mem_cons_self
    have rest := ih fun x hx => h x (List.mem_cons_of_mem _ hx)
    simp [assign, below, Asymm.asymm _ _ below, rest]

theorem foldl_assign {o ms : List (κ × β)} (h : Ascending (o ++ ms)) :
    ms.foldl (fun o m => assign m.1 m.2 o) o = o ++ ms := by
  induction ms generalizing o with
  | nil => simp
  | cons m ms ih =>
    have below : ∀ e ∈ o, e.1 < m.1 := by
      intro e he
      exact (List.pairwise_append.mp h).2.2 e he m List.mem_cons_self
    have step := ih (o := o ++ [m]) (by simpa [Ascending] using h)
    simpa [assign_last below] using step

/-- Entries already in order build themselves. -/
theorem collect_of_ascending {ms : List (κ × β)} (h : Ascending ms) : collect ms = ms := by
  simpa [collect] using foldl_assign (o := []) h

end Ascending

def isSpace (c : U8) : Bool := c == 0x20 || c == 0x09 || c == 0x0A || c == 0x0D

def isDigit (c : U8) : Bool := decide (0x30 ≤ c) && decide (c ≤ 0x39)

def isDigit19 (c : U8) : Bool := decide (0x31 ≤ c) && decide (c ≤ 0x39)

theorem isDigit_of_isDigit19 {c : U8} (h : isDigit19 c) : isDigit c := by
  simp only [isDigit19, isDigit, Bool.and_eq_true, decide_eq_true_eq] at h ⊢
  exact ⟨BitVec.le_trans (by decide) h.1, h.2⟩

variable {D : Type}

/-- `%04x` of a byte. -/
def hex4 (c : U8) : ByteString :=
  let digit (d : U8) : U8 := if d < 10 then 0x30 + d else 0x61 + (d - 10)
  [0x30, 0x30, digit (c >>> 4), digit (c &&& 0xF)]

def escape (c : U8) : ByteString :=
  if c = 0x22 then [0x5C, 0x22]
  else if c = 0x5C then [0x5C, 0x5C]
  else if c = 0x0A then [0x5C, 0x6E]
  else if c = 0x0D then [0x5C, 0x72]
  else if c = 0x09 then [0x5C, 0x74]
  else if c = 0x08 then [0x5C, 0x62]
  else if c = 0x0C then [0x5C, 0x66]
  else if c < 0x20 then [0x5C, 0x75] ++ hex4 c
  else [c]

def writeString (s : ByteString) : ByteString := [0x22] ++ s.flatMap escape ++ [0x22]

/-- `os << n` of an unsigned integer. -/
def natural (n : ℕ) : ByteString := (Nat.toDigits 10 n).map fun c => BitVec.ofNat 8 c.toNat

/-- `os << i` of an `int64_t`. -/
def integer (i : ℤ) : ByteString := if i < 0 then 0x2D :: natural i.natAbs else natural i.natAbs

def readNatural (ds : ByteString) : Option ℕ :=
  if ds ≠ [] ∧ ds.all isDigit then some (ds.foldl (fun n d => 10 * n + (d.toNat - 48)) 0) else none

/-- `std::stod` on the text of an integer. -/
def readInteger (text : ByteString) : Option ℤ :=
  if text.head? = some 0x2D then (readNatural text.tail).map fun n : ℕ => -(n : ℤ)
  else (readNatural text).map fun n : ℕ => (n : ℤ)

/-- The integers in the place of `double`; every conversion is exact on them. -/
def integers : Doubles ℤ where
  eq a b := a = b
  ofInt64 := id
  toInt64 := id
  print := integer
  stod := readInteger

def writeNumber (F : Doubles D) (d : D) : ByteString :=
  if F.eq d (F.ofInt64 (F.toInt64 d)) then integer (F.toInt64 d) else F.print d

/-- The lambda `nl`. -/
def newline (pretty : Bool) (indent : ℕ) : ByteString :=
  if pretty then 0x0A :: List.replicate (2 * indent) 0x20 else []

/-- A code point of the basic plane in UTF-8; surrogates are not paired. -/
def utf8 (cp : U32) : ByteString :=
  if cp < 0x80 then [cp.setWidth 8]
  else if cp < 0x800 then
    [(0xC0 ||| (cp >>> 6)).setWidth 8, (0x80 ||| (cp &&& 0x3F)).setWidth 8]
  else
    [(0xE0 ||| (cp >>> 12)).setWidth 8, (0x80 ||| ((cp >>> 6) &&& 0x3F)).setWidth 8,
      (0x80 ||| (cp &&& 0x3F)).setWidth 8]

mutual

def write (F : Doubles D) (pretty : Bool) (indent : ℕ) : Json D → ByteString
  | .null => ascii "null"
  | .bool b => ascii (if b then "true" else "false")
  | .number d => writeNumber F d
  | .string s => writeString s
  | .array a => [0x5B] ++ writeElements F pretty indent [] a ++ [0x5D]
  | .object o => [0x7B] ++ writeEntries F pretty indent [] o ++ [0x7D]

/-- The loop over an array; every element but the first has a comma before it. -/
def writeElements (F : Doubles D) (pretty : Bool) (indent : ℕ) (comma : ByteString) :
    List (Json D) → ByteString
  | [] => []
  | v :: a =>
    comma ++ newline pretty indent ++ write F pretty (indent + 1) v ++
      writeElements F pretty indent [0x2C] a

def writeEntries (F : Doubles D) (pretty : Bool) (indent : ℕ) (comma : ByteString) :
    List (ByteString × Json D) → ByteString
  | [] => []
  | (k, v) :: o =>
    comma ++ newline pretty indent ++ writeString k ++ [0x3A] ++ (if pretty then [0x20] else []) ++
      write F pretty (indent + 1) v ++ writeEntries F pretty indent [0x2C] o

end

def dump (F : Doubles D) (pretty : Bool) (v : Json D) : ByteString := write F pretty 0 v

end Json

end NumaFabric
