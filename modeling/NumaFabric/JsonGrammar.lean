import NumaFabric.JsonValue

/-! The grammar of RFC 8259 over bytes, as a relation between a text, what the phrase at
its front denotes, and what is left behind the phrase. The spelling of the literal names
is a parameter: exact, or with whitespace between the letters. -/
namespace NumaFabric.JsonGrammar
open Json (isSpace isDigit isDigit19)

/-- `ws`. -/
inductive Ws : ByteString → ByteString → Prop
  | nil {l : ByteString} : Ws l l
  | cons {b : U8} {l r : ByteString} : isSpace b → Ws l r → Ws (b :: l) r

/-- The six structural characters, each with whitespace on both sides. -/
def Structural (c : U8) (l r : ByteString) : Prop := ∃ m, Ws l (c :: m) ∧ Ws m r

/-- `[ p ]` of the grammar's notation. -/
def Opt (p : ByteString → ByteString → Prop) (l r : ByteString) : Prop := l = r ∨ p l r

/-- `1*DIGIT`. -/
inductive Digits : ByteString → ByteString → Prop
  | one {d : U8} {r : ByteString} : isDigit d → Digits (d :: r) r
  | more {d : U8} {l r : ByteString} : isDigit d → Digits l r → Digits (d :: l) r

def Minus (l r : ByteString) : Prop := l = 0x2D :: r

inductive Int : ByteString → ByteString → Prop
  | zero {r : ByteString} : Int (0x30 :: r) r
  | digit {d : U8} {r : ByteString} : isDigit19 d → Int (d :: r) r
  | digits {d : U8} {l r : ByteString} : isDigit19 d → Digits l r → Int (d :: l) r

inductive Frac : ByteString → ByteString → Prop
  | point {l r : ByteString} : Digits l r → Frac (0x2E :: l) r

def Sign (l r : ByteString) : Prop := l = 0x2B :: r ∨ l = 0x2D :: r

inductive Exp : ByteString → ByteString → Prop
  | exponent {e : U8} {l m r : ByteString} :
      e = 0x65 ∨ e = 0x45 → Opt Sign l m → Digits m r → Exp (e :: l) r

def Number (l r : ByteString) : Prop :=
  ∃ a b c, Opt Minus l a ∧ Int a b ∧ Opt Frac b c ∧ Opt Exp c r

/-- A `HEXDIG` and its value. -/
inductive HexDigit : U8 → U32 → Prop
  | digit {h : U8} : isDigit h → HexDigit h ((h - 0x30).setWidth 32)
  | lower {h : U8} : 0x61 ≤ h → h ≤ 0x66 → HexDigit h ((h - 0x61 + 10).setWidth 32)
  | upper {h : U8} : 0x41 ≤ h → h ≤ 0x46 → HexDigit h ((h - 0x41 + 10).setWidth 32)

/-- An escape of two characters: the second one and the byte it stands for. -/
inductive Escape : U8 → U8 → Prop
  | quotationMark : Escape 0x22 0x22
  | reverseSolidus : Escape 0x5C 0x5C
  | solidus : Escape 0x2F 0x2F
  | backspace : Escape 0x62 0x08
  | formFeed : Escape 0x66 0x0C
  | lineFeed : Escape 0x6E 0x0A
  | carriageReturn : Escape 0x72 0x0D
  | tab : Escape 0x74 0x09

def codePoint (a b c d : U32) : U32 := ((a * 16 + b) * 16 + c) * 16 + d

/-- The characters of a string, up to and with the closing quotation mark. -/
inductive Chars : ByteString → ByteString → ByteString → Prop
  | close {r : ByteString} : Chars (0x22 :: r) [] r
  | unescaped {c : U8} {l s r : ByteString} :
      0x20 ≤ c → c ≠ 0x22 → c ≠ 0x5C → Chars l s r → Chars (c :: l) (c :: s) r
  | escape {e b : U8} {l s r : ByteString} :
      Escape e b → Chars l s r → Chars (0x5C :: e :: l) (b :: s) r
  | unicode {h₁ h₂ h₃ h₄ : U8} {a b c d : U32} {l s r : ByteString} :
      HexDigit h₁ a → HexDigit h₂ b → HexDigit h₃ c → HexDigit h₄ d → Chars l s r →
        Chars (0x5C :: 0x75 :: h₁ :: h₂ :: h₃ :: h₄ :: l) (Json.utf8 (codePoint a b c d) ++ s) r

inductive Str : ByteString → ByteString → ByteString → Prop
  | quote {l s r : ByteString} : Chars l s r → Str (0x22 :: l) s r

/-- How a literal name is spelled: the name, the text and what is left behind it. -/
abbrev Spelling := ByteString → ByteString → ByteString → Prop

def Exact : Spelling := fun name l r => l = name ++ r

/-- The letters of a name, each with whitespace before it. -/
inductive Spread : Spelling
  | nil {r : ByteString} : Spread [] r r
  | cons {c : U8} {name l m r : ByteString} :
      Ws l (c :: m) → Spread name m r → Spread (c :: name) l r

/-- A name with whitespace between its letters. -/
def Spaced : Spelling
  | [], l, r => l = r
  | c :: name, l, r => ∃ m, l = c :: m ∧ Spread name m r

/-- The nonterminals that are recursive, each with what it denotes. -/
inductive Phrase (D : Type)
  | value (v : Json D)
  | elements (vs : List (Json D))
  | members (ms : List (ByteString × Json D))

variable {D : Type}

open Phrase in
/-- A number is one that `std::stod` converts. -/
inductive Derives (spelled : Spelling) (stod : ByteString → Option D) :
    Phrase D → ByteString → ByteString → Prop
  | null {l r : ByteString} : spelled (ascii "null") l r → Derives spelled stod (value .null) l r
  | true {l r : ByteString} :
      spelled (ascii "true") l r → Derives spelled stod (value (.bool true)) l r
  | false {l r : ByteString} :
      spelled (ascii "false") l r → Derives spelled stod (value (.bool false)) l r
  | number {num r : ByteString} {d : D} :
      Number (num ++ r) r → stod num = some d →
        Derives spelled stod (value (.number d)) (num ++ r) r
  | string {l s r : ByteString} : Str l s r → Derives spelled stod (value (.string s)) l r
  | emptyArray {l m r : ByteString} :
      Structural 0x5B l m → Structural 0x5D m r → Derives spelled stod (value (.array [])) l r
  | array {vs : List (Json D)} {l a b r : ByteString} :
      Structural 0x5B l a → Derives spelled stod (elements vs) a b → Structural 0x5D b r →
        Derives spelled stod (value (.array vs)) l r
  | emptyObject {l m r : ByteString} :
      Structural 0x7B l m → Structural 0x7D m r → Derives spelled stod (value (.object [])) l r
  | object {ms : List (ByteString × Json D)} {l a b r : ByteString} :
      Structural 0x7B l a → Derives spelled stod (members ms) a b → Structural 0x7D b r →
        Derives spelled stod (value (.object (Json.collect ms))) l r
  | element {v : Json D} {l r : ByteString} :
      Derives spelled stod (value v) l r → Derives spelled stod (elements [v]) l r
  | elements {v : Json D} {vs : List (Json D)} {l a b r : ByteString} :
      Derives spelled stod (value v) l a → Structural 0x2C a b →
        Derives spelled stod (elements vs) b r → Derives spelled stod (elements (v :: vs)) l r
  | member {k : ByteString} {v : Json D} {l a b r : ByteString} :
      Str l k a → Structural 0x3A a b → Derives spelled stod (value v) b r →
        Derives spelled stod (members [(k, v)]) l r
  | members {k : ByteString} {v : Json D} {ms : List (ByteString × Json D)}
      {l a b c d r : ByteString} :
      Str l k a → Structural 0x3A a b → Derives spelled stod (value v) b c → Structural 0x2C c d →
        Derives spelled stod (members ms) d r → Derives spelled stod (members ((k, v) :: ms)) l r

/-- `JSON-text = ws value ws`. -/
def Text (spelled : Spelling) (stod : ByteString → Option D) (text : ByteString) (v : Json D) :
    Prop :=
  ∃ l r, Ws text l ∧ Derives spelled stod (.value v) l r ∧ Ws r []

end NumaFabric.JsonGrammar
