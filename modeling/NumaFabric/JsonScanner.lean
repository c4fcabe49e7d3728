import NumaFabric.JsonGrammar
import NumaFabric.JsonParser

/-! The lexical helpers of the parser against the grammar: what each accepts is a phrase,
and every phrase that is followed by something that cannot extend it is accepted. -/
namespace NumaFabric.JsonParser
open FaultState JsonGrammar
open Json (isSpace isDigit isDigit19)

theorem ws_skip (s : ByteString) : Ws s (skip s) := by
  induction s with
  | nil => exact .nil
  | cons c s ih =>
    cases space : isSpace c with
    | true => simpa [skip, space] using Ws.cons space ih
    | false => simpa [skip, space] using Ws.nil

theorem skip_eq_of_ws {l r : ByteString} (h : Ws l r) : skip l = skip r := by
  induction h with
  | nil => rfl
  | cons space _ ih => simpa [skip, space] using ih

theorem skip_of_not_space {c : U8} {l : ByteString} (h : isSpace c = false) :
    skip (c :: l) = c :: l := by
  simp [skip, h]

theorem skip_eq_cons {c : U8} {l m : ByteString} (h : Ws l (c :: m)) (token : isSpace c = false) :
    skip l = c :: m := by
  rw [skip_eq_of_ws h, skip_of_not_space token]

@[simp] theorem skip_skip (s : ByteString) : skip (skip s) = skip s :=
  (skip_eq_of_ws (ws_skip s)).symm

theorem suffix_of_ws {l r : ByteString} (h : Ws l r) : r <:+ l := by
  induction h with
  | nil => exact List.suffix_rfl
  | cons _ _ ih => exact ih.trans (List.suffix_cons _ _)

theorem run_ws (s : ByteString) : ws.run s = .ok () (skip s) := rfl

theorem run_getChar_eq_ok {c : U8} {s r : ByteString} :
    getChar.run s = .ok c r ↔ skip s = c :: r := by
  rw [EStateM.run, getChar]
  cases skip s with
  | nil => simp
  | cons b rest => simp

theorem run_consume (c : U8) (s : ByteString) :
    (consume c).run s = .ok ((skip s).head? == some c)
      (if (skip s).head? = some c then (skip s).tail else skip s) := by
  rw [EStateM.run, consume]
  cases skip s with
  | nil => rfl
  | cons b rest =>
    by_cases same : b = c
    · simp [same]
    · simp [same]

theorem run_consume_true {c : U8} {s r : ByteString} (h : skip s = c :: r) :
    (consume c).run s = .ok true r := by
  simp [run_consume, h]

theorem run_consume_false {c : U8} {s : ByteString} (h : (skip s).head? ≠ some c) :
    (consume c).run s = .ok false (skip s) := by
  simp [run_consume, h]

theorem consume_true_cases {c : U8} {s r : ByteString} (h : (consume c).run s = .ok true r) :
    skip s = c :: r := by
  rw [run_consume] at h
  cases rest : skip s with
  | nil => simp [rest] at h
  | cons b m =>
    by_cases same : b = c
    · simpa [rest, same] using h
    · simp [rest, same] at h

theorem consume_false_cases {c : U8} {s r : ByteString} (h : (consume c).run s = .ok false r) :
    r = skip s := by
  rw [run_consume] at h
  by_cases first : (skip s).head? = some c
  · simp [first] at h
  · simpa [first] using h.symm

/-- A structural character stands where the parser consumes it. -/
theorem structural_of_skip {c : U8} {s r : ByteString} (h : skip s = c :: r) : Structural c s r :=
  ⟨r, h ▸ ws_skip s, .nil⟩

theorem skip_of_structural {c : U8} {l r : ByteString} (h : Structural c l r)
    (token : isSpace c = false) : ∃ m, skip l = c :: m ∧ skip m = skip r := by
  obtain ⟨m, before, behind⟩ := h
  exact ⟨m, skip_eq_cons before token, skip_eq_of_ws behind⟩

/-- A literal is accepted with any whitespace before each of its letters. -/
theorem run_expect_eq_ok {lit s r : ByteString} (letters : ∀ c ∈ lit, isSpace c = false) :
    (expect lit).run s = .ok () r ↔ Spread lit s r := by
  induction lit generalizing s with
  | nil =>
    rw [expect, run_pure_eq_ok]
    constructor
    · rintro ⟨-, rfl⟩
      exact .nil
    · rintro ⟨⟩
      exact ⟨rfl, rfl⟩
  | cons c lit ih =>
    have tail {m} := ih (s := m) fun x hx => letters x (List.mem_cons_of_mem _ hx)
    rw [expect, run_bind_eq_ok]
    constructor
    · rintro ⟨b, m, got, h⟩
      obtain ⟨⟨⟩, u, checked, rest⟩ := run_bind_eq_ok.mp h
      obtain ⟨same, rfl⟩ := run_throwIf_eq_ok.mp checked
      obtain rfl : b = c := by simpa using same
      rw [run_getChar_eq_ok] at got
      exact .cons (got ▸ ws_skip s) (tail.mp rest)
    · rintro (_ | ⟨before, behind⟩)
      refine ⟨c, _, run_getChar_eq_ok.mpr (skip_eq_cons before (letters c List.mem_cons_self)), ?_⟩
      have checked : ((c != c) = false) := by simp
      rw [checked]
      exact tail.mpr behind

/-- A phrase that starts with a character other than whitespace and ends no later than the
text does. -/
def Token (l r : ByteString) : Prop := ∃ c m, l = c :: m ∧ isSpace c = false ∧ r <:+ m

theorem Token.suffix {l r : ByteString} (h : Token l r) : r <:+ l := by
  obtain ⟨c, m, rfl, -, rest⟩ := h
  exact rest.trans (List.suffix_cons _ _)

theorem Token.skip_eq {l r : ByteString} (h : Token l r) : skip l = l := by
  obtain ⟨c, m, rfl, token, -⟩ := h
  exact skip_of_not_space token

theorem Token.append {l m r : ByteString} (h : Token l m) (rest : r <:+ m) : Token l r := by
  obtain ⟨c, n, eq, token, tail⟩ := h
  exact ⟨c, n, eq, token, rest.trans tail⟩

theorem suffix_of_opt {p : ByteString → ByteString → Prop} {l r : ByteString}
    (token : ∀ {l r}, p l r → Token l r) (h : Opt p l r) : r <:+ l := by
  rcases h with rfl | h
  · exact List.suffix_rfl
  · exact (token h).suffix

theorem not_space_of_isDigit {d : U8} (h : isDigit d) : isSpace d = false := by
  cases space : isSpace d with
  | false => rfl
  | true =>
    simp only [isSpace, Bool.or_eq_true, beq_iff_eq] at space
    rcases space with ((rfl | rfl) | rfl) | rfl
    all_goals exact absurd h (by decide)

theorem token_of_digits {l r : ByteString} (h : Digits l r) : Token l r := by
  induction h with
  | one digit => exact ⟨_, _, rfl, not_space_of_isDigit digit, List.suffix_rfl⟩
  | more digit _ ih => exact ⟨_, _, rfl, not_space_of_isDigit digit, ih.suffix⟩

theorem token_of_int {l r : ByteString} (h : Int l r) : Token l r := by
  cases h with
  | zero => exact ⟨_, _, rfl, rfl, List.suffix_rfl⟩
  | digit first =>
    exact ⟨_, _, rfl, not_space_of_isDigit (Json.isDigit_of_isDigit19 first), List.suffix_rfl⟩
  | digits first rest =>
    exact ⟨_, _, rfl, not_space_of_isDigit (Json.isDigit_of_isDigit19 first),
      (token_of_digits rest).suffix⟩

theorem token_of_frac {l r : ByteString} (h : Frac l r) : Token l r := by
  obtain ⟨digits⟩ := h
  exact ⟨_, _, rfl, rfl, (token_of_digits digits).suffix⟩

theorem token_of_sign {l r : ByteString} (h : Sign l r) : Token l r := by
  rcases h with rfl | rfl
  · exact ⟨_, _, rfl, rfl, List.suffix_rfl⟩
  · exact ⟨_, _, rfl, rfl, List.suffix_rfl⟩

theorem token_of_exp {l r : ByteString} (h : Exp l r) : Token l r := by
  obtain ⟨letter, sign, digits⟩ := h
  have rest := (token_of_digits digits).suffix.trans (suffix_of_opt token_of_sign sign)
  rcases letter with rfl | rfl
  · exact ⟨_, _, rfl, rfl, rest⟩
  · exact ⟨_, _, rfl, rfl, rest⟩

theorem token_of_number {l r : ByteString} (h : Number l r) : Token l r := by
  obtain ⟨a, b, c, minus, int, frac, exp⟩ := h
  have rest := (suffix_of_opt token_of_exp exp).trans (suffix_of_opt token_of_frac frac)
  have tail := (token_of_int int).append rest
  rcases minus with rfl | rfl
  · exact tail
  · exact ⟨_, _, rfl, rfl, tail.suffix⟩

theorem token_of_str {l s r : ByteString} (h : Str l s r) : Token l r := by
  have suffix : ∀ {l s r : ByteString}, Chars l s r → r <:+ l := by
    intro l s r h
    induction h with
    | close => exact List.suffix_cons _ _
    | unescaped _ _ _ _ ih => exact ih.trans (List.suffix_cons _ _)
    | @escape e _ l _ _ _ _ ih => exact ih.trans (List.suffix_append [0x5C, e] l)
    | @unicode h₁ h₂ h₃ h₄ _ _ _ _ l _ _ _ _ _ _ _ ih =>
      exact ih.trans (List.suffix_append [0x5C, 0x75, h₁, h₂, h₃, h₄] l)
  obtain ⟨chars⟩ := h
  exact ⟨_, _, rfl, rfl, suffix chars⟩

theorem suffix_of_spread {name l r : ByteString} (h : Spread name l r) : r <:+ l := by
  induction h with
  | nil => exact List.suffix_rfl
  | cons before _ ih => exact (ih.trans (List.suffix_cons _ _)).trans (suffix_of_ws before)

theorem token_of_spaced {c : U8} {name l r : ByteString} (h : Spaced (c :: name) l r)
    (letter : isSpace c = false) : Token l r := by
  obtain ⟨m, rfl, rest⟩ := h
  exact ⟨c, m, rfl, letter, suffix_of_spread rest⟩

theorem escapeByte_eq_some {e b : U8} : escapeByte e = some b ↔ Escape e b := by
  constructor
  · intro h
    unfold escapeByte at h
    split_ifs at h with h₁ h₂ h₃ h₄ h₅ h₆ h₇ h₈
    all_goals
      subst e
      cases h
      constructor
  · rintro ⟨⟩ <;> rfl

theorem hex_eq_some {h : U8} {a : U32} : hex h = some a ↔ HexDigit h a := by
  unfold hex
  constructor
  · intro eq
    split_ifs at eq with dec lower upper
    · cases eq
      exact .digit dec
    · cases eq
      exact .lower lower.1 lower.2
    · cases eq
      exact .upper upper.1 upper.2
  · rintro (dec | ⟨from61, to66⟩ | ⟨from41, to46⟩)
    · rw [if_pos dec]
    · have dec : ¬isDigit h := by
        simp only [isDigit, Bool.and_eq_true, decide_eq_true_eq, not_and]
        intro _ below
        exact absurd (BitVec.le_trans from61 below) (by decide)
      rw [if_neg dec, if_pos ⟨from61, to66⟩]
    · have dec : ¬isDigit h := by
        simp only [isDigit, Bool.and_eq_true, decide_eq_true_eq, not_and]
        intro _ below
        exact absurd (BitVec.le_trans from41 below) (by decide)
      have lower : ¬(0x61 ≤ h ∧ h ≤ 0x66) := by
        rintro ⟨from61, -⟩
        exact absurd (BitVec.le_trans from61 to46) (by decide)
      rw [if_neg dec, if_neg lower, if_pos ⟨from41, to46⟩]

theorem codePoint_eq_some {h₁ h₂ h₃ h₄ : U8} {cp : U32} :
    codePoint [h₁, h₂, h₃, h₄] = some cp ↔
      ∃ a b c d, HexDigit h₁ a ∧ HexDigit h₂ b ∧ HexDigit h₃ c ∧ HexDigit h₄ d ∧
        JsonGrammar.codePoint a b c d = cp := by
  simp only [codePoint, JsonGrammar.codePoint, List.foldlM_cons, List.foldlM_nil,
    Option.bind_eq_bind, Option.bind_eq_some_iff, Option.map_eq_some_iff, hex_eq_some,
    Option.pure_def, Option.some.injEq]
  constructor
  · rintro ⟨_, ⟨a, ha, rfl⟩, _, ⟨b, hb, rfl⟩, _, ⟨c, hc, rfl⟩, _, ⟨d, hd, rfl⟩, rfl⟩
    exact ⟨a, b, c, d, ha, hb, hc, hd, by simp⟩
  · rintro ⟨a, b, c, d, ha, hb, hc, hd, rfl⟩
    exact ⟨_, ⟨a, ha, rfl⟩, _, ⟨b, hb, rfl⟩, _, ⟨c, hc, rfl⟩, _, ⟨d, hd, rfl⟩, by simp⟩

theorem stringLoop_sound {s out t r : ByteString} (h : stringLoop s out = .ok t r) :
    ∃ u, t = out ++ u ∧ Chars s u r := by
  fun_induction stringLoop s out with
  | case1 => cases h
  | case2 out s =>
    cases h
    exact ⟨[], by simp, .close⟩
  | case3 => cases h
  | case4 out e s b esc quote ih =>
    obtain ⟨u, rfl, rest⟩ := ih h
    exact ⟨b :: u, by simp, .escape (escapeByte_eq_some.mp esc) rest⟩
  | case5 out h₁ h₂ h₃ h₄ s cp hexed quote other ih =>
    obtain ⟨u, rfl, rest⟩ := ih h
    obtain ⟨a, b, c, d, ha, hb, hc, hd, rfl⟩ := codePoint_eq_some.mp hexed
    exact ⟨_ ++ u, by simp, .unicode ha hb hc hd rest⟩
  | case6 => cases h
  | case7 => cases h
  | case8 => cases h
  | case9 => cases h
  | case10 c s out quote back control ih =>
    obtain ⟨u, rfl, rest⟩ := ih h
    exact ⟨c :: u, by simp, .unescaped (BitVec.not_lt.mp control) quote back rest⟩

theorem stringLoop_complete {s u r : ByteString} (h : Chars s u r) (out : ByteString) :
    stringLoop s out = .ok (out ++ u) r := by
  induction h generalizing out with
  | close =>
    rw [stringLoop.eq_def]
    simp
  | unescaped printable quote back rest ih =>
    rw [stringLoop.eq_def]
    change (if _ then _ else if _ then _ else if _ then _ else _) = _
    rw [if_neg quote, if_neg back, if_neg (BitVec.not_lt.mpr printable), ih, List.append_assoc,
      List.singleton_append]
  | escape esc rest ih =>
    rw [stringLoop.eq_def]
    simp [escapeByte_eq_some.mpr esc, ih]
  | unicode ha hb hc hd rest ih =>
    have hexed := codePoint_eq_some.mpr ⟨_, _, _, _, ha, hb, hc, hd, rfl⟩
    have letter : escapeByte 0x75#8 = none := rfl
    rw [stringLoop.eq_def]
    simp [letter, hexed, ih]

theorem run_parseString_eq_ok {s u r : ByteString} :
    parseString.run s = .ok u r ↔ ∃ c l, skip s = c :: l ∧ Chars l u r := by
  rw [parseString, run_bind_eq_ok]
  constructor
  · rintro ⟨c, l, got, h⟩
    change stringLoop l [] = .ok u r at h
    obtain ⟨v, rfl, chars⟩ := stringLoop_sound h
    exact ⟨c, l, run_getChar_eq_ok.mp got, chars⟩
  · rintro ⟨c, l, first, chars⟩
    exact ⟨c, l, run_getChar_eq_ok.mpr first, stringLoop_complete chars []⟩

/-- The text does not start with a character of the class. -/
def NoHead (p : U8 → Bool) (l : ByteString) : Prop := ∀ c ∈ l.head?, p c = false

/-- What may stand behind a value. -/
def isDelimiter (c : U8) : Bool := isSpace c || c == 0x2C || c == 0x5D || c == 0x7D

def Delimited (r : ByteString) : Prop := ∀ c ∈ r.head?, isDelimiter c

theorem Delimited.noHead {p : U8 → Bool} {r : ByteString} (h : Delimited r)
    (miss : [0x20, 0x09, 0x0A, 0x0D, 0x2C, 0x5D, 0x7D].all (fun c : U8 => !p c)) : NoHead p r := by
  intro c hc
  have delimiter := h c hc
  simp only [isDelimiter, isSpace, Bool.or_eq_true, beq_iff_eq] at delimiter
  simp only [List.all_cons, List.all_nil, Bool.and_true, Bool.and_eq_true, Bool.not_eq_true'] at miss
  rcases delimiter with (((((rfl | rfl) | rfl) | rfl) | rfl) | rfl) | rfl
  all_goals tauto

theorem digits_dropWhile {d : U8} {l : ByteString} (h : isDigit d) :
    Digits (d :: l) (l.dropWhile isDigit) := by
  induction l generalizing d with
  | nil => exact .one h
  | cons c l ih =>
    cases next : isDigit c with
    | true => simpa [next] using Digits.more h (ih next)
    | false => simpa [next] using Digits.one h

/-- A run of digits that nothing extends is the one the loop takes. -/
theorem dropWhile_of_digits {l r : ByteString} (h : Digits l r) (stop : NoHead isDigit r) :
    ∃ d m, l = d :: m ∧ isDigit d ∧ m.dropWhile isDigit = r := by
  induction h with
  | @one d r digit =>
    refine ⟨d, r, rfl, digit, ?_⟩
    cases r with
    | nil => rfl
    | cons c r => simp [stop c rfl]
  | @more d l r digit _ ih =>
    obtain ⟨c, m, rfl, next, rest⟩ := ih stop
    exact ⟨d, c :: m, rfl, digit, by simpa [next] using rest⟩

theorem run_digits {first : U8 → Bool} (e : JsonError) {d : U8} (m : ByteString) (h : first d) :
    (digits first e).run (d :: m) = .ok () (m.dropWhile isDigit) := by
  change (if first d then _ else _) = _
  rw [if_pos h]

theorem digits_cases {first : U8 → Bool} {e : JsonError} {s r : ByteString}
    (h : (digits first e).run s = .ok () r) :
    ∃ d m, s = d :: m ∧ first d ∧ r = m.dropWhile isDigit := by
  cases s with
  | nil => cases h
  | cons d m =>
    cases ok : first d with
    | true =>
      rw [run_digits e m ok] at h
      cases h
      exact ⟨d, m, rfl, ok, rfl⟩
    | false =>
      change (if first d then _ else _) = _ at h
      rw [if_neg (by simp [ok])] at h
      cases h

theorem integerPart_sound {s r : ByteString} (h : integerPart.run s = .ok () r) :
    Int (skip s) r := by
  rw [integerPart, run_bind_eq_ok] at h
  obtain ⟨zero, m, consumed, h⟩ := h
  cases zero with
  | true =>
    obtain ⟨_, u, got, h⟩ := run_bind_eq_ok.mp h
    cases got
    obtain ⟨-, rfl⟩ := run_throwIf_eq_ok.mp h
    rw [consume_true_cases consumed]
    exact .zero
  | false =>
    obtain ⟨d, l, eq, first, rfl⟩ := digits_cases h
    rw [← consume_false_cases consumed, eq]
    cases l with
    | nil => exact .digit first
    | cons c l =>
      cases next : isDigit c with
      | true => simpa [next] using Int.digits first (digits_dropWhile next)
      | false => simpa [next] using Int.digit first

theorem integerPart_complete {l r : ByteString} (h : Int l r) (stop : NoHead isDigit r) :
    integerPart.run l = .ok () r := by
  have whole := (token_of_int h).skip_eq
  rw [integerPart]
  cases h with
  | zero =>
    rw [run_bind_of_ok (run_consume_true whole)]
    have alone : r.head?.any isDigit = false := by
      cases r with
      | nil => rfl
      | cons c r => exact stop c rfl
    change (throwIf (r.head?.any isDigit) _ : Parser Unit).run r = _
    rw [alone]
    rfl
  | @digit d _ first =>
    have other : (skip (d :: r)).head? ≠ some 0x30 := by
      rw [whole]
      rintro ⟨⟩
      cases first
    rw [run_bind_of_ok (run_consume_false other), whole]
    have rest := run_digits .badNumber r first
    cases r with
    | nil => exact rest
    | cons c r => simpa [stop c rfl] using rest
  | @digits d l _ first more =>
    have other : (skip (d :: l)).head? ≠ some 0x30 := by
      rw [whole]
      rintro ⟨⟩
      cases first
    rw [run_bind_of_ok (run_consume_false other), whole]
    obtain ⟨c, m, rfl, next, rest⟩ := dropWhile_of_digits more stop
    simpa [next, rest] using run_digits .badNumber (c :: m) first

theorem fractionPart_sound {s r : ByteString} (h : fractionPart.run s = .ok () r) :
    Opt Frac s r := by
  cases s with
  | nil =>
    cases h
    exact .inl rfl
  | cons c s =>
    change (if c = 0x2E then (digits isDigit .badFraction).run s else .ok () (c :: s)) = _ at h
    split_ifs at h with point
    · obtain ⟨d, m, rfl, digit, rfl⟩ := digits_cases h
      exact .inr (point ▸ .point (digits_dropWhile digit))
    · cases h
      exact .inl rfl

theorem fractionPart_complete {l r : ByteString} (h : Opt Frac l r) (stop : NoHead isDigit r)
    (none : NoHead (· == 0x2E) r) : fractionPart.run l = .ok () r := by
  rcases h with rfl | ⟨⟨more⟩⟩
  · cases l with
    | nil => rfl
    | cons c l =>
      have other : c ≠ 0x2E := by simpa using none c rfl
      exact if_neg other
  · obtain ⟨d, m, rfl, digit, rest⟩ := dropWhile_of_digits more stop
    exact (run_digits .badFraction m digit).trans (congrArg _ rest)

theorem sign_skipSign (s : ByteString) : Opt Sign s (skipSign s) := by
  cases s with
  | nil => exact .inl rfl
  | cons c s =>
    by_cases sign : c = 0x2B ∨ c = 0x2D
    · rw [skipSign, if_pos sign]
      rcases sign with rfl | rfl
      · exact .inr (.inl rfl)
      · exact .inr (.inr rfl)
    · rw [skipSign, if_neg sign]
      exact .inl rfl

theorem skipSign_of_sign {l m r : ByteString} (h : Opt Sign l m) (digits : Digits m r) :
    skipSign l = m := by
  rcases h with rfl | rfl | rfl
  · obtain ⟨c, n, rfl, -, -⟩ := token_of_digits digits
    have digit : isDigit c := by cases digits <;> assumption
    have other : ¬(c = 0x2B ∨ c = 0x2D) := by
      rintro (rfl | rfl)
      all_goals cases digit
    exact if_neg other
  · rfl
  · rfl

theorem exponentPart_sound {s r : ByteString} (h : exponentPart.run s = .ok () r) :
    Opt Exp s r := by
  cases s with
  | nil =>
    cases h
    exact .inl rfl
  | cons c s =>
    change (if c = 0x65 ∨ c = 0x45 then (digits isDigit .badExponent).run (skipSign s)
      else .ok () (c :: s)) = _ at h
    split_ifs at h with letter
    · obtain ⟨d, m, eq, digit, rfl⟩ := digits_cases h
      have signed := sign_skipSign s
      rw [eq] at signed
      exact .inr (.exponent letter signed (digits_dropWhile digit))
    · cases h
      exact .inl rfl

theorem exponentPart_complete {l r : ByteString} (h : Opt Exp l r) (stop : NoHead isDigit r)
    (none : NoHead (fun c => c == 0x65 || c == 0x45) r) : exponentPart.run l = .ok () r := by
  rcases h with rfl | ⟨letter, sign, more⟩
  · cases l with
    | nil => rfl
    | cons c l =>
      have other : ¬(c = 0x65 ∨ c = 0x45) := by simpa using none c rfl
      exact if_neg other
  · have signed := skipSign_of_sign sign more
    obtain ⟨d, m, rfl, digit, rest⟩ := dropWhile_of_digits more stop
    refine (if_pos letter).trans ?_
    rw [signed]
    exact (run_digits .badExponent m digit).trans (congrArg _ rest)

theorem noHead_of_frac {p : U8 → Bool} {l r : ByteString} (h : Opt Frac l r) (stop : NoHead p r)
    (point : p 0x2E = false) : NoHead p l := by
  rcases h with rfl | ⟨⟨-⟩⟩
  · exact stop
  · rintro c ⟨⟩
    exact point

theorem noHead_of_exp {p : U8 → Bool} {l r : ByteString} (h : Opt Exp l r) (stop : NoHead p r)
    (lower : p 0x65 = false) (upper : p 0x45 = false) : NoHead p l := by
  rcases h with rfl | ⟨rfl | rfl, -, -⟩
  · exact stop
  · rintro c ⟨⟩
    exact lower
  · rintro c ⟨⟩
    exact upper

variable {D : Type} {F : Doubles D}

/-- `std::stod` skips leading whitespace, but not behind a sign. -/
def SignStops (stod : ByteString → Option D) : Prop :=
  ∀ c t, isSpace c → stod (0x2D :: c :: t) = none

theorem take_of_suffix (num r : ByteString) :
    (num ++ r).take ((num ++ r).length - r.length) = num := by
  rw [List.length_append, Nat.add_sub_cancel, List.take_left]

theorem run_minus {l a b : ByteString} (minus : Opt Minus l a) (int : Int a b) :
    ∃ signed, (consume 0x2D).run l = .ok signed a := by
  rcases minus with rfl | rfl
  · have whole := (token_of_int int).skip_eq
    have other : (skip l).head? ≠ some 0x2D := by
      rw [whole]
      rintro eq
      cases int with
      | zero => cases eq
      | digit first =>
        cases eq
        cases first
      | digits first _ =>
        cases eq
        cases first
    exact ⟨false, by rw [run_consume_false other, whole]⟩
  · exact ⟨true, run_consume_true (skip_of_not_space rfl)⟩

theorem parseNumber_complete {s num r : ByteString} {d : D} (h : Number (num ++ r) r)
    (converted : F.stod num = some d) (behind : Delimited r) (front : skip s = num ++ r) :
    (parseNumber F).run s = .ok (.number d) r := by
  obtain ⟨a, b, c, minus, int, frac, exp⟩ := h
  have stopR : NoHead isDigit r := behind.noHead rfl
  have stopC := noHead_of_exp exp stopR rfl rfl
  have stopB := noHead_of_frac frac stopC rfl
  have noPoint := noHead_of_exp exp (behind.noHead (p := (· == 0x2E)) rfl) rfl rfl
  obtain ⟨signed, sign⟩ := run_minus minus int
  rw [parseNumber, run_bind_of_ok (run_ws s), front]
  change EStateM.run ((consume 0x2D) >>= _) (num ++ r) = _
  rw [run_bind_of_ok sign, run_bind_of_ok (integerPart_complete int stopB),
    run_bind_of_ok (fractionPart_complete frac stopC noPoint),
    run_bind_of_ok (exponentPart_complete exp stopR (behind.noHead rfl))]
  have read : F.stod ((num ++ r).take ((num ++ r).length - r.length)) = some d := by
    rw [take_of_suffix, converted]
  simp only [EStateM.run_bind, EStateM.run_get, read]
  rfl

/-- Whitespace behind the sign is left to `std::stod`, which does not convert it. -/
theorem minus_of_converted (stops : SignStops F.stod) {l a r : ByteString} {signed : Bool} {d : D}
    (whole : skip l = l) (consumed : (consume 0x2D).run l = .ok signed a) (ends : r <:+ skip a)
    (converted : F.stod (l.take (l.length - r.length)) = some d) : Opt Minus l (skip a) := by
  cases signed with
  | false =>
    rw [consume_false_cases consumed]
    exact .inl (by simp [whole])
  | true =>
    have front := consume_true_cases consumed
    rw [whole] at front
    subst front
    cases a with
    | nil => exact .inr rfl
    | cons w a =>
      cases space : isSpace w with
      | false => exact .inr (by rw [skip_of_not_space space]; rfl)
      | true =>
        have shorter : skip (w :: a) = skip a := skip_eq_of_ws (.cons space .nil)
        rw [shorter] at ends
        obtain ⟨x, rfl⟩ := ends.trans (suffix_of_ws (ws_skip a))
        have piece := take_of_suffix (0x2D :: w :: x) r
        rw [List.cons_append, List.cons_append] at piece
        rw [piece, stops w x space] at converted
        cases converted

theorem parseNumber_sound (stops : SignStops F.stod) {s r : ByteString} {v : Json D}
    (h : (parseNumber F).run s = .ok v r) :
    ∃ num d, skip s = num ++ r ∧ v = .number d ∧ F.stod num = some d ∧ Number (num ++ r) r := by
  rw [parseNumber, run_bind_of_ok (run_ws s)] at h
  obtain ⟨start, _, got, h⟩ := run_bind_eq_ok.mp h
  cases got
  obtain ⟨signed, a, consumed, h⟩ := run_bind_eq_ok.mp h
  obtain ⟨_, b, int, h⟩ := run_bind_eq_ok.mp h
  obtain ⟨_, c, frac, h⟩ := run_bind_eq_ok.mp h
  obtain ⟨_, e, exp, h⟩ := run_bind_eq_ok.mp h
  obtain ⟨rest, _, got, h⟩ := run_bind_eq_ok.mp h
  cases got
  have int := integerPart_sound int
  have frac := fractionPart_sound frac
  have exp := exponentPart_sound exp
  have ends : e <:+ skip a :=
    ((suffix_of_opt token_of_exp exp).trans (suffix_of_opt token_of_frac frac)).trans
      (token_of_int int).suffix
  cases converted : F.stod ((skip s).take ((skip s).length - e.length)) with
  | none =>
    rw [converted] at h
    cases h
  | some d =>
    rw [converted] at h
    obtain ⟨rfl, rfl⟩ := run_pure_eq_ok.mp h
    have minus := minus_of_converted stops (skip_skip s) consumed ends converted
    have number : Number (skip s) e := ⟨_, b, c, minus, int, frac, exp⟩
    obtain ⟨num, eq⟩ := (token_of_number number).suffix
    rw [← eq] at number converted
    rw [take_of_suffix] at converted
    exact ⟨num, d, eq.symm, rfl, converted, number⟩

end NumaFabric.JsonParser
