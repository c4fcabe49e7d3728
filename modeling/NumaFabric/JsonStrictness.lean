import NumaFabric.JsonAcceptance

/-! Where the parser is strict: it accepts the grammar of RFC 8259 and, beside it, only
texts in which whitespace breaks a literal. Such texts are told by a scan that follows
strings and remembers whether the last token was a letter. -/
namespace NumaFabric.JsonParser
open FaultState JsonGrammar
open Json (isSpace isDigit)

def isLetter (c : U8) : Bool :=
  (decide (0x61 ≤ c) && decide (c ≤ 0x7A)) || (decide (0x41 ≤ c) && decide (c ≤ 0x5A))

/-- Outside of strings, behind a letter, behind a letter and whitespace, in a string, and
behind a reverse solidus in one. -/
inductive Place
  | outside | letter | gap | quoted | escaped
  deriving DecidableEq, Repr

namespace Place

/-- The place is not in a string. -/
def bare : Place → Bool
  | outside | letter | gap => true
  | quoted | escaped => false

def next (p : Place) (c : U8) : Place :=
  match p with
  | quoted => if c = 0x22 then outside else if c = 0x5C then escaped else quoted
  | escaped => quoted
  | outside | letter | gap =>
    if c = 0x22 then quoted
    else if isLetter c then letter
    else if isSpace c && p != outside then gap
    else outside

end Place

def tight : Place → ByteString → Bool
  | _, [] => true
  | p, c :: l => !(p == .gap && isLetter c) && tight (p.next c) l

/-- No whitespace stands between two letters outside of strings. -/
def Unbroken (text : ByteString) : Prop := tight .outside text

instance (text : ByteString) : Decidable (Unbroken text) := inferInstanceAs (Decidable (_ = true))

theorem not_letter_of_isSpace {c : U8} (h : isSpace c) : isLetter c = false ∧ c ≠ 0x22#8 := by
  simp only [isSpace, Bool.or_eq_true, beq_iff_eq] at h
  rcases h with ((rfl | rfl) | rfl) | rfl
  all_goals decide

theorem not_letter_of_isDigit {c : U8} (h : isDigit c) : isLetter c = false ∧ c ≠ 0x22#8 := by
  simp only [isDigit, Bool.and_eq_true, decide_eq_true_eq] at h
  constructor
  · simp only [isLetter, Bool.or_eq_false_iff, Bool.and_eq_false_iff, decide_eq_false_iff_not]
    constructor
    · left
      intro above
      exact absurd (BitVec.le_trans above h.2) (by decide)
    · left
      intro above
      exact absurd (BitVec.le_trans above h.2) (by decide)
  · rintro rfl
    exact absurd h.1 (by decide)

/-- A character that is neither whitespace nor a letter nor a quotation mark leads outside. -/
theorem tight_mark {p : Place} {c : U8} (l : ByteString) (bare : p.bare) (quote : c ≠ 0x22#8)
    (letter : isLetter c = false) (space : isSpace c = false) :
    tight p (c :: l) = tight .outside l := by
  cases p with
  | outside | letter | gap => simp [tight, Place.next, quote, letter, space]
  | quoted | escaped => cases bare

theorem tight_quote {p : Place} (l : ByteString) (bare : p.bare) :
    tight p (0x22 :: l) = tight .quoted l := by
  cases p with
  | outside | letter | gap => rfl
  | quoted | escaped => cases bare

theorem tight_space {p : Place} {c : U8} (l : ByteString) (bare : p.bare) (space : isSpace c) :
    tight p (c :: l) = tight (if p = .outside then .outside else .gap) l := by
  obtain ⟨letter, quote⟩ := not_letter_of_isSpace space
  cases p with
  | outside | letter | gap => simp [tight, Place.next, quote, letter, space]
  | quoted | escaped => cases bare

theorem tight_letter {p : Place} {c : U8} (l : ByteString) (bare : p.bare) (letter : isLetter c) :
    tight p (c :: l) = (p != .gap && tight .letter l) := by
  have quote : c ≠ 0x22#8 := by
    rintro rfl
    cases letter
  cases p with
  | outside | letter | gap => simp [tight, Place.next, quote, letter, bne]
  | quoted | escaped => cases bare

/-- Behind a letter the scan is stricter. -/
theorem tight_outside {p : Place} {l : ByteString} (bare : p.bare) (h : tight p l) :
    tight .outside l := by
  induction l generalizing p with
  | nil => rfl
  | cons c l ih =>
    by_cases quote : c = 0x22
    · subst quote
      rwa [tight_quote l bare] at h
    by_cases letter : isLetter c
    · rw [tight_letter l bare letter, Bool.and_eq_true] at h
      rw [tight_letter l rfl letter, h.2]
      rfl
    by_cases space : isSpace c
    · rw [tight_space l bare space] at h
      rw [tight_space l rfl space]
      exact ih (by split_ifs <;> rfl) h
    · rw [Bool.not_eq_true] at letter space
      rw [tight_mark l bare quote letter space] at h
      rwa [tight_mark l rfl quote letter space]

theorem tight_ws {l r : ByteString} (h : Ws l r) : tight .outside l = tight .outside r := by
  induction h with
  | nil => rfl
  | cons space _ ih => rw [tight_space _ rfl space, if_pos rfl, ih]

/-- The six structural characters. -/
def isStructural (c : U8) : Bool := [0x5B, 0x5D, 0x7B, 0x7D, 0x3A, 0x2C].contains c

theorem plain_of_isStructural {c : U8} (h : isStructural c) :
    c ≠ 0x22#8 ∧ isLetter c = false ∧ isSpace c = false := by
  simp only [isStructural, List.contains_cons, List.contains_nil, Bool.or_false, Bool.or_eq_true,
    beq_iff_eq] at h
  rcases h with rfl | rfl | rfl | rfl | rfl | rfl
  all_goals decide

/-- Whitespace around a structural character does not matter. -/
theorem tight_structural {p : Place} {c : U8} {l r : ByteString} (h : Structural c l r)
    (bare : p.bare) (structural : isStructural c) : tight p l = tight .outside r := by
  obtain ⟨quote, letter, space⟩ := plain_of_isStructural structural
  obtain ⟨m, before, behind⟩ := h
  have marked : ∀ {p : Place} {l : ByteString}, p.bare → Ws l (c :: m) →
      tight p l = tight .outside m := by
    intro p l bare before
    generalize eq : c :: m = n at before
    induction before generalizing p with
    | nil =>
      subst eq
      exact tight_mark m bare quote letter space
    | cons blank _ ih =>
      rw [tight_space _ bare blank]
      exact ih (by split_ifs <;> rfl) eq
  rw [marked bare before, tight_ws behind]

theorem tight_end {p : Place} {l : ByteString} (bare : p.bare) (h : Ws l []) : tight p l := by
  generalize eq : ([] : ByteString) = n at h
  induction h generalizing p with
  | nil =>
    subst eq
    cases p <;> rfl
  | cons space _ ih =>
    rw [tight_space _ bare space]
    exact ih (by split_ifs <;> rfl) eq

theorem tight_plain {c : U8} (l : ByteString) (quote : c ≠ 0x22) (back : c ≠ 0x5C) :
    tight .quoted (c :: l) = tight .quoted l := by
  change (_ && tight (if c = 0x22 then .outside else if c = 0x5C then .escaped else .quoted) l) = _
  rw [if_neg quote, if_neg back]
  rfl

theorem tight_escape (e : U8) (l : ByteString) :
    tight .quoted (0x5C :: e :: l) = tight .quoted l := rfl

theorem tight_hex {h : U8} {a : U32} (l : ByteString) (digit : HexDigit h a) :
    tight .quoted (h :: l) = tight .quoted l := by
  cases digit with
  | digit dec =>
    apply tight_plain
    · exact (not_letter_of_isDigit dec).2
    · rintro rfl
      cases dec
  | lower above _ =>
    apply tight_plain
    · rintro rfl
      exact absurd above (by decide)
    · rintro rfl
      exact absurd above (by decide)
  | upper above below =>
    apply tight_plain
    · rintro rfl
      exact absurd above (by decide)
    · rintro rfl
      exact absurd below (by decide)

theorem tight_chars {l s r : ByteString} (h : Chars l s r) :
    tight .quoted l = tight .outside r := by
  induction h with
  | close => rfl
  | unescaped _ quote back _ ih => rw [tight_plain _ quote back, ih]
  | escape _ _ ih => rw [tight_escape, ih]
  | unicode ha hb hc hd _ ih =>
    rw [tight_escape, tight_hex _ ha, tight_hex _ hb, tight_hex _ hc, tight_hex _ hd, ih]

theorem tight_str {p : Place} {l s r : ByteString} (h : Str l s r) (bare : p.bare) :
    tight p l = tight .outside r := by
  obtain ⟨chars⟩ := h
  rw [tight_quote _ bare, tight_chars chars]

theorem tight_digit {p : Place} {d : U8} (l : ByteString) (bare : p.bare) (digit : isDigit d) :
    tight p (d :: l) = tight .outside l := by
  obtain ⟨letter, quote⟩ := not_letter_of_isDigit digit
  exact tight_mark l bare quote letter (not_space_of_isDigit digit)

theorem tight_digits {p : Place} {l r : ByteString} (h : Digits l r) (bare : p.bare) :
    tight p l = tight .outside r := by
  induction h generalizing p with
  | one first => exact tight_digit _ bare first
  | more first _ ih => rw [tight_digit _ bare first, ih rfl]

theorem tight_exp {l r : ByteString} (h : Exp l r) : tight .outside l = tight .outside r := by
  obtain ⟨letter, sign, digits⟩ := h
  have entered : ∀ {e : U8}, e = 0x65 ∨ e = 0x45 → isLetter e := by
    rintro e (rfl | rfl)
    · rfl
    · rfl
  rw [tight_letter _ rfl (entered letter)]
  change tight .letter _ = _
  rcases sign with rfl | rfl | rfl
  · exact tight_digits digits rfl
  · rw [tight_mark _ rfl (by decide) rfl rfl, tight_digits digits rfl]
  · rw [tight_mark _ rfl (by decide) rfl rfl, tight_digits digits rfl]

theorem tight_number {l r : ByteString} (h : Number l r) : tight .outside l = tight .outside r := by
  obtain ⟨a, b, c, minus, int, frac, exp⟩ := h
  have tail : tight .outside c = tight .outside r := by
    rcases exp with rfl | exp
    · rfl
    · exact tight_exp exp
  have point : tight .outside b = tight .outside c := by
    rcases frac with rfl | ⟨⟨digits⟩⟩
    · rfl
    · rw [tight_mark _ rfl (by decide) rfl rfl, tight_digits digits rfl]
  have whole : tight .outside a = tight .outside b := by
    cases int with
    | zero => exact tight_mark _ rfl (by decide) rfl rfl
    | digit first => exact tight_digit _ rfl (Json.isDigit_of_isDigit19 first)
    | digits first rest =>
      rw [tight_digit _ rfl (Json.isDigit_of_isDigit19 first), tight_digits rest rfl]
  rcases minus with rfl | rfl
  · rw [whole, point, tail]
  · rw [tight_mark _ rfl (by decide) rfl rfl, whole, point, tail]

theorem tight_gap {c : U8} {l m : ByteString} (h : Ws l (c :: m)) (letter : isLetter c) :
    tight .gap l = false := by
  generalize eq : c :: m = n at h
  induction h with
  | nil =>
    subst eq
    rw [tight_letter m rfl letter]
    rfl
  | cons space _ ih =>
    rw [tight_space _ rfl space]
    exact ih eq

/-- Spaced letters that no whitespace breaks are the name itself. -/
theorem exact_of_spread {name l r : ByteString} (h : Spread name l r)
    (letters : ∀ c ∈ name, isLetter c) (unbroken : tight .letter l) :
    Exact name l r ∧ tight .letter r := by
  induction h with
  | nil => exact ⟨rfl, unbroken⟩
  | @cons c name l m r before _ ih =>
    have letter := letters c List.mem_cons_self
    cases before with
    | nil =>
      rw [tight_letter m rfl letter, Bool.and_eq_true] at unbroken
      obtain ⟨eq, rest⟩ := ih (fun x hx => letters x (List.mem_cons_of_mem _ hx)) unbroken.2
      exact ⟨congrArg (c :: ·) eq, rest⟩
    | cons space before =>
      rw [tight_space _ rfl space] at unbroken
      have broken := tight_gap before letter
      rw [if_neg (by decide), broken] at unbroken
      cases unbroken

theorem letters_null : ∀ c ∈ ascii "null", isLetter c := by decide

theorem letters_true : ∀ c ∈ ascii "true", isLetter c := by decide

theorem letters_false : ∀ c ∈ ascii "false", isLetter c := by decide

theorem exact_of_spaced {name l r : ByteString} (h : Spaced name l r)
    (letters : ∀ c ∈ name, isLetter c) (solid : Solid name) (unbroken : tight .outside l) :
    Exact name l r ∧ tight .outside r := by
  cases name with
  | nil => exact absurd rfl solid.named
  | cons c name =>
    obtain ⟨m, rfl, spread⟩ := h
    rw [tight_letter m rfl (letters c List.mem_cons_self), Bool.and_eq_true] at unbroken
    obtain ⟨eq, rest⟩ := exact_of_spread spread
      (fun x hx => letters x (List.mem_cons_of_mem _ hx)) unbroken.2
    exact ⟨congrArg (c :: ·) eq, tight_outside rfl rest⟩

theorem tight_exact {name l r : ByteString} (h : Exact name l r) (letters : ∀ c ∈ name, isLetter c)
    (behind : tight .letter r) : tight .outside l := by
  have run : ∀ name : ByteString, (∀ c ∈ name, isLetter c) → tight .letter (name ++ r) := by
    intro name letters
    induction name with
    | nil => exact behind
    | cons c name ih =>
      rw [List.cons_append, tight_letter _ rfl (letters c List.mem_cons_self)]
      exact ih fun x hx => letters x (List.mem_cons_of_mem _ hx)
  exact h ▸ tight_outside rfl (run name letters)

theorem spaced_of_exact {name l r : ByteString} (h : Exact name l r) : Spaced name l r := by
  have spread : ∀ name, Spread name (name ++ r) r := by
    intro name
    induction name with
    | nil => exact .nil
    | cons c name ih => exact .cons .nil ih
  subst h
  cases name with
  | nil => rfl
  | cons c name => exact ⟨name ++ r, rfl, spread name⟩

variable {D : Type} {F : Doubles D} {stod : ByteString → Option D}

theorem spaced_of_derives {p : Phrase D} {l r : ByteString} (h : Derives Exact stod p l r) :
    Derives Spaced stod p l r := by
  induction h with
  | null exact => exact .null (spaced_of_exact exact)
  | true exact => exact .true (spaced_of_exact exact)
  | false exact => exact .false (spaced_of_exact exact)
  | number number converted => exact .number number converted
  | string str => exact .string str
  | emptyArray front close => exact .emptyArray front close
  | array front _ close ih => exact .array front ih close
  | emptyObject front close => exact .emptyObject front close
  | object front _ close ih => exact .object front ih close
  | element _ ih => exact .element ih
  | elements _ comma _ ihv ihs => exact .elements ihv comma ihs
  | member key colon _ ih => exact .member key colon ih
  | members key colon _ comma _ ihv ihs => exact .members key colon ihv comma ihs

/-- A phrase of the standard is unbroken when what follows it is, even behind a letter. -/
theorem tight_of_derives {p : Phrase D} {l r : ByteString} (h : Derives Exact stod p l r)
    (behind : tight .letter r) : tight .outside l := by
  have ends := tight_outside rfl behind
  induction h with
  | null exact => exact tight_exact exact letters_null behind
  | true exact => exact tight_exact exact letters_true behind
  | false exact => exact tight_exact exact letters_false behind
  | number number _ => rwa [tight_number number]
  | string str => rwa [tight_str str rfl]
  | emptyArray front close | emptyObject front close =>
    rwa [tight_structural front rfl rfl,
      tight_structural close rfl rfl]
  | array front _ close ih | object front _ close ih =>
    have last := (tight_structural (p := .letter) close rfl rfl).trans ends
    rw [tight_structural front rfl rfl]
    exact ih last (tight_outside rfl last)
  | element _ ih => exact ih behind ends
  | elements _ comma _ ihv ihs =>
    have last := (tight_structural (p := .letter) comma rfl rfl).trans
      (ihs behind ends)
    exact ihv last (tight_outside rfl last)
  | member key colon _ ih =>
    rw [tight_str key rfl, tight_structural colon rfl rfl]
    exact ih behind ends
  | members key colon _ comma _ ihv ihs =>
    have last := (tight_structural (p := .letter) comma rfl rfl).trans
      (ihs behind ends)
    rw [tight_str key rfl, tight_structural colon rfl rfl]
    exact ihv last (tight_outside rfl last)

/-- A phrase with spaced literals is one of the standard when no literal is broken. -/
theorem exact_of_derives {p : Phrase D} {l r : ByteString} (h : Derives Spaced stod p l r)
    (unbroken : tight .outside l) : Derives Exact stod p l r ∧ tight .outside r := by
  induction h with
  | null spaced =>
    obtain ⟨exact, rest⟩ := exact_of_spaced spaced letters_null solid_null unbroken
    exact ⟨.null exact, rest⟩
  | true spaced =>
    obtain ⟨exact, rest⟩ := exact_of_spaced spaced letters_true solid_true unbroken
    exact ⟨.true exact, rest⟩
  | false spaced =>
    obtain ⟨exact, rest⟩ := exact_of_spaced spaced letters_false solid_false unbroken
    exact ⟨.false exact, rest⟩
  | number number converted => exact ⟨.number number converted, tight_number number ▸ unbroken⟩
  | string str => exact ⟨.string str, tight_str (p := .outside) str rfl ▸ unbroken⟩
  | emptyArray front close =>
    rw [tight_structural front rfl rfl,
      tight_structural close rfl rfl] at unbroken
    exact ⟨.emptyArray front close, unbroken⟩
  | array front _ close ih =>
    rw [tight_structural front rfl rfl] at unbroken
    obtain ⟨elements, rest⟩ := ih unbroken
    rw [tight_structural close rfl rfl] at rest
    exact ⟨.array front elements close, rest⟩
  | emptyObject front close =>
    rw [tight_structural front rfl rfl,
      tight_structural close rfl rfl] at unbroken
    exact ⟨.emptyObject front close, unbroken⟩
  | object front _ close ih =>
    rw [tight_structural front rfl rfl] at unbroken
    obtain ⟨members, rest⟩ := ih unbroken
    rw [tight_structural close rfl rfl] at rest
    exact ⟨.object front members close, rest⟩
  | element _ ih =>
    obtain ⟨value, rest⟩ := ih unbroken
    exact ⟨.element value, rest⟩
  | elements _ comma _ ihv ihs =>
    obtain ⟨value, between⟩ := ihv unbroken
    rw [tight_structural comma rfl rfl] at between
    obtain ⟨elements, rest⟩ := ihs between
    exact ⟨.elements value comma elements, rest⟩
  | member key colon _ ih =>
    rw [tight_str key rfl, tight_structural colon rfl rfl] at unbroken
    obtain ⟨value, rest⟩ := ih unbroken
    exact ⟨.member key colon value, rest⟩
  | members key colon _ comma _ ihv ihs =>
    rw [tight_str key rfl, tight_structural colon rfl rfl] at unbroken
    obtain ⟨value, between⟩ := ihv unbroken
    rw [tight_structural comma rfl rfl] at between
    obtain ⟨members, rest⟩ := ihs between
    exact ⟨.members key colon value comma members, rest⟩

theorem unbroken_of_text {text : ByteString} {v : Json D} (h : Text Exact stod text v) :
    Unbroken text := by
  obtain ⟨l, r, before, derives, behind⟩ := h
  rw [Unbroken, tight_ws before]
  exact tight_of_derives derives (tight_end rfl behind)

theorem text_of_unbroken {text : ByteString} {v : Json D} (h : Text Spaced stod text v)
    (unbroken : Unbroken text) : Text Exact stod text v := by
  obtain ⟨l, r, before, derives, behind⟩ := h
  rw [Unbroken, tight_ws before] at unbroken
  exact ⟨l, r, before, (exact_of_derives derives unbroken).1, behind⟩

theorem text_spaced {text : ByteString} {v : Json D} (h : Text Exact stod text v) :
    Text Spaced stod text v := by
  obtain ⟨l, r, before, derives, behind⟩ := h
  exact ⟨l, r, before, spaced_of_derives derives, behind⟩

/-- The parser accepts a text when and only when the standard derives it, save where
whitespace breaks a literal of a text that is otherwise derivable. -/
theorem strict_iff_unbroken (F : Doubles D) (stops : SignStops F.stod) (text : ByteString) :
    ((∃ v, Json.parse F text = .ok v) ↔ ∃ v, Text Exact F.stod text v) ↔
      ((∃ v, Text Spaced F.stod text v) → Unbroken text) := by
  constructor
  · rintro strict ⟨v, spaced⟩
    obtain ⟨w, exact⟩ := strict.mp ⟨v, parse_of_text spaced⟩
    exact unbroken_of_text exact
  · intro unbroken
    constructor
    · rintro ⟨v, parsed⟩
      have spaced := text_of_parse stops parsed
      exact ⟨v, text_of_unbroken spaced (unbroken ⟨v, spaced⟩)⟩
    · rintro ⟨v, exact⟩
      exact ⟨v, parse_of_text (text_spaced exact)⟩

theorem signStops_integers : SignStops Json.integers.stod := by
  intro c t space
  have other : isDigit c = false := by
    cases digit : isDigit c with
    | false => rfl
    | true => simp [not_space_of_isDigit digit] at space
  change Json.readInteger (0x2D :: c :: t) = none
  rw [Json.readInteger, if_pos List.head?_cons, List.tail_cons, Json.readNatural,
    if_neg (by simp [other])]
  rfl

set_option maxRecDepth 20000 in
theorem parse_array : (Json.parse Json.integers (ascii "[true,\n null]")).isOk = true := by decide +kernel

/-- An indented array of literals is accepted, and so it is a text of the grammar. -/
theorem strict_array : ∃ v, Text Exact Json.integers.stod (ascii "[true,\n null]") v := by
  have strict := (strict_iff_unbroken Json.integers signStops_integers (ascii "[true,\n null]")).mpr
    fun _ => by decide
  have accepted := parse_array
  cases parsed : Json.parse Json.integers (ascii "[true,\n null]") with
  | ok v => exact strict.mp ⟨v, parsed⟩
  | error e =>
    rw [parsed] at accepted
    cases accepted

/-- A blank in a literal is read over. -/
theorem broken_literal_accepted :
    (∃ v, Json.parse Json.integers (ascii "t rue") = .ok v) ∧
      ¬∃ v, Text Exact Json.integers.stod (ascii "t rue") v := by
  refine ⟨⟨.bool true, rfl⟩, ?_⟩
  rintro ⟨v, exact⟩
  exact absurd (unbroken_of_text exact) (by decide)

end NumaFabric.JsonParser
