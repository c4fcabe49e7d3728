import NumaFabric.JsonScanner

/-! The parser accepts a text exactly when it is derivable in the grammar in which the
letters of a literal may be spaced, and returns what the derivation denotes. -/
namespace NumaFabric.JsonParser
open FaultState JsonGrammar
open Json (isSpace isDigit)

variable {D : Type} {F : Doubles D}

theorem run_peek (s : ByteString) : peek.run s = .ok ((skip s).headD 0) (skip s) := rfl

theorem skip_of_peek {s : ByteString} {c : U8} (h : (skip s).headD 0 = c) (nonzero : c ≠ 0) :
    ∃ m, skip s = c :: m := by
  cases eq : skip s with
  | nil =>
    rw [eq] at h
    exact absurd h.symm nonzero
  | cons b m =>
    rw [eq] at h
    exact ⟨m, congrArg (· :: m) h⟩

/-- A name that is not empty and holds no whitespace. -/
structure Solid (name : ByteString) : Prop where
  named : name ≠ []
  letters : ∀ b ∈ name, isSpace b = false

theorem solid_null : Solid (ascii "null") := ⟨by decide, by decide⟩

theorem solid_true : Solid (ascii "true") := ⟨by decide, by decide⟩

theorem solid_false : Solid (ascii "false") := ⟨by decide, by decide⟩

theorem spaced_of_spread {c : U8} {name s r : ByteString} (h : Spread (c :: name) (skip s) r)
    (letter : isSpace c = false) : Spaced (c :: name) (skip s) r := by
  obtain _ | ⟨before, behind⟩ := h
  have front := skip_eq_cons before letter
  rw [skip_skip] at front
  exact ⟨_, front, behind⟩

theorem structural_skip {c : U8} {s m : ByteString} (h : skip s = c :: m) :
    Structural c s (skip m) :=
  ⟨m, h ▸ ws_skip s, ws_skip m⟩

theorem structural_front {c : U8} {s m : ByteString} (h : skip s = c :: m) :
    Structural c (skip s) (skip m) :=
  ⟨m, h ▸ .nil, ws_skip m⟩

theorem consumed_cases {α : Type} {c : U8} {e : JsonFault} {f : Parser α} {s r : ByteString} {a : α}
    (h : (consume c >>= fun taken => throwIf (!taken) e >>= fun _ => f).run s = .ok a r) :
    ∃ m, skip s = c :: m ∧ f.run m = .ok a r := by
  obtain ⟨taken, m, consumed, h⟩ := run_bind_eq_ok.mp h
  obtain ⟨_, _, checked, rest⟩ := run_bind_eq_ok.mp h
  obtain ⟨passed, rfl⟩ := run_throwIf_eq_ok.mp checked
  cases taken with
  | true => exact ⟨m, consume_true_cases consumed, rest⟩
  | false => cases passed

/-- The shape that arrays and objects share: a loop between two brackets. -/
def enclosed {α β : Type} (c : U8) (empty : β) (loop : Parser α) (wrap : α → β) : Parser β := do
  let _ ← getChar
  if ← consume c then return empty
  else return wrap (← loop)

section Enclosed
variable {α β : Type} {b c : U8} {empty v : β} {loop : Parser α} {wrap : α → β} {x : α}
  {s m r : ByteString}

theorem run_enclosed (front : skip s = b :: m) :
    (enclosed c empty loop wrap).run s = (consume c >>= fun closed =>
      if closed then pure empty else loop >>= fun x => pure (wrap x)).run m := by
  rw [enclosed, run_bind_of_ok (run_getChar_eq_ok.mpr front)]

theorem run_enclosed_empty (front : skip s = b :: m) (close : skip m = c :: r) :
    (enclosed c empty loop wrap).run s = .ok empty r := by
  rw [run_enclosed front, run_bind_of_ok (run_consume_true close)]
  rfl

theorem run_enclosed_loop (front : skip s = b :: m) (further : (skip m).head? ≠ some c)
    (looped : loop.run (skip m) = .ok x r) :
    (enclosed c empty loop wrap).run s = .ok (wrap x) r := by
  rw [run_enclosed front, run_bind_of_ok (run_consume_false further)]
  exact run_bind_of_ok looped

theorem enclosed_cases (front : skip s = b :: m)
    (h : (enclosed c empty loop wrap).run s = .ok v r) :
    (v = empty ∧ skip m = c :: r) ∨ ∃ x, v = wrap x ∧ loop.run (skip m) = .ok x r := by
  rw [run_enclosed front] at h
  obtain ⟨closed, t, consumed, h⟩ := run_bind_eq_ok.mp h
  cases closed with
  | true =>
    obtain ⟨rfl, rfl⟩ := run_pure_eq_ok.mp h
    exact .inl ⟨rfl, consume_true_cases consumed⟩
  | false =>
    obtain ⟨x, u, looped, h⟩ := run_bind_eq_ok.mp h
    obtain ⟨rfl, rfl⟩ := run_pure_eq_ok.mp h
    rw [consume_false_cases consumed] at looped
    exact .inr ⟨x, rfl, looped⟩

end Enclosed

theorem parseArray_sound {loop : Parser (List (Json D))} {s r m : ByteString} {v : Json D}
    (front : skip s = 0x5B :: m)
    (sound : ∀ {l vs t}, loop.run l = .ok vs t →
      ∃ b, Derives Spaced F.stod (.elements vs) (skip l) b ∧ Structural 0x5D b t)
    (h : (parseArray loop).run s = .ok v r) : Derives Spaced F.stod (.value v) (skip s) r := by
  change (enclosed 0x5D (.array []) loop .array).run s = .ok v r at h
  rcases enclosed_cases front h with ⟨rfl, close⟩ | ⟨vs, rfl, looped⟩
  · exact .emptyArray ⟨m, front ▸ .nil, .nil⟩ (structural_of_skip close)
  · obtain ⟨b, elements, close⟩ := sound looped
    rw [skip_skip] at elements
    exact .array (structural_front front) elements close

theorem parseObject_sound {loop : Parser (List (ByteString × Json D))} {s r m : ByteString}
    {v : Json D} (front : skip s = 0x7B :: m)
    (sound : ∀ {l o t}, loop.run l = .ok o t →
      ∃ ms b, o = Json.collect ms ∧ Derives Spaced F.stod (.members ms) (skip l) b ∧
        Structural 0x7D b t)
    (h : (parseObject loop).run s = .ok v r) : Derives Spaced F.stod (.value v) (skip s) r := by
  change (enclosed 0x7D (.object []) loop .object).run s = .ok v r at h
  rcases enclosed_cases front h with ⟨rfl, close⟩ | ⟨o, rfl, looped⟩
  · exact .emptyObject ⟨m, front ▸ .nil, .nil⟩ (structural_of_skip close)
  · obtain ⟨ms, b, rfl, members, close⟩ := sound looped
    rw [skip_skip] at members
    exact .object (structural_front front) members close

theorem parseString_sound {s u r m : ByteString} (front : skip s = 0x22 :: m)
    (h : parseString.run s = .ok u r) : Str (skip s) u r := by
  obtain ⟨c, l, eq, chars⟩ := run_parseString_eq_ok.mp h
  rw [front] at eq
  cases eq
  exact front ▸ .quote chars

/-- What the calls with one bound on the recursion accept is derivable. -/
structure Sound (F : Doubles D) (n : ℕ) : Prop where
  value : ∀ {s v r}, (parseValue F n).run s = .ok v r →
    Derives Spaced F.stod (.value v) (skip s) r
  array : ∀ {s a vs r}, (arrayLoop F n a).run s = .ok vs r → ∃ us m, vs = a ++ us ∧
    Derives Spaced F.stod (.elements us) (skip s) m ∧ Structural 0x5D m r
  object : ∀ {s o o' r}, (objectLoop F n o).run s = .ok o' r → ∃ ms m,
    o' = ms.foldl (fun o m => Json.assign m.1 m.2 o) o ∧
      Derives Spaced F.stod (.members ms) (skip s) m ∧ Structural 0x7D m r

theorem expect_sound {name s r : ByteString} {v w : Json D}
    (solid : Solid name)
    (h : (expect name >>= fun _ => (pure w : Parser (Json D))).run (skip s) = .ok v r) :
    w = v ∧ Spaced name (skip (skip s)) r := by
  rw [skip_skip]
  obtain ⟨_, m, expected, h⟩ := run_bind_eq_ok.mp h
  obtain ⟨rfl, rfl⟩ := run_pure_eq_ok.mp h
  have spread := (run_expect_eq_ok solid.letters).mp expected
  cases name with
  | nil => exact absurd rfl solid.named
  | cons c name => exact ⟨rfl, spaced_of_spread spread (solid.letters c List.mem_cons_self)⟩

theorem parseValue_sound (stops : SignStops F.stod) {n : ℕ} (sound : Sound F n) {s r : ByteString}
    {v : Json D} (h : (parseValue F (n + 1)).run s = .ok v r) :
    Derives Spaced F.stod (.value v) (skip s) r := by
  rw [parseValue, run_bind_of_ok (run_ws s), run_bind_of_ok (run_peek (skip s))] at h
  rw [← skip_skip s]
  generalize peeked : (skip (skip s)).headD 0 = c at h
  rw [skip_skip s] at h
  split_ifs at h with quote brace bracket t f n number
  · obtain ⟨m, front⟩ := skip_of_peek (peeked.trans quote) (by decide)
    obtain ⟨u, _, got, h⟩ := run_bind_eq_ok.mp h
    obtain ⟨rfl, rfl⟩ := run_pure_eq_ok.mp h
    exact .string (parseString_sound front got)
  · obtain ⟨m, front⟩ := skip_of_peek (peeked.trans brace) (by decide)
    refine parseObject_sound front ?_ h
    intro l o t looped
    obtain ⟨ms, b, rfl, members, close⟩ := sound.object looped
    exact ⟨ms, b, rfl, members, close⟩
  · obtain ⟨m, front⟩ := skip_of_peek (peeked.trans bracket) (by decide)
    refine parseArray_sound front ?_ h
    intro l vs t looped
    obtain ⟨us, b, rfl, elements, close⟩ := sound.array looped
    exact ⟨b, elements, close⟩
  · obtain ⟨rfl, spaced⟩ := expect_sound solid_true h
    exact .true spaced
  · obtain ⟨rfl, spaced⟩ := expect_sound solid_false h
    exact .false spaced
  · obtain ⟨rfl, spaced⟩ := expect_sound solid_null h
    exact .null spaced
  · obtain ⟨num, d, front, rfl, converted, number⟩ := parseNumber_sound stops h
    rw [front]
    exact .number number converted
  · cases h

theorem arrayLoop_sound {n : ℕ} (sound : Sound F n) {s r : ByteString} {a vs : List (Json D)}
    (h : (arrayLoop F (n + 1) a).run s = .ok vs r) : ∃ us m, vs = a ++ us ∧
      Derives Spaced F.stod (.elements us) (skip s) m ∧ Structural 0x5D m r := by
  rw [arrayLoop] at h
  obtain ⟨v, m, parsed, h⟩ := run_bind_eq_ok.mp h
  obtain ⟨closed, t, consumed, h⟩ := run_bind_eq_ok.mp h
  have value := sound.value parsed
  cases closed with
  | true =>
    obtain ⟨rfl, rfl⟩ := run_pure_eq_ok.mp h
    exact ⟨[v], m, rfl, .element value, structural_of_skip (consume_true_cases consumed)⟩
  | false =>
    obtain ⟨u, next, h⟩ := consumed_cases h
    obtain ⟨us, b, rfl, elements, close⟩ := sound.array h
    rw [consume_false_cases consumed, skip_skip] at next
    exact ⟨v :: us, b, by simp, .elements value (structural_skip next) elements, close⟩

theorem objectLoop_sound {n : ℕ} (sound : Sound F n) {s r : ByteString}
    {o o' : List (ByteString × Json D)} (h : (objectLoop F (n + 1) o).run s = .ok o' r) :
    ∃ ms m, o' = ms.foldl (fun o m => Json.assign m.1 m.2 o) o ∧
      Derives Spaced F.stod (.members ms) (skip s) m ∧ Structural 0x7D m r := by
  rw [objectLoop, run_bind_of_ok (run_ws s), run_bind_of_ok (run_peek (skip s))] at h
  obtain ⟨_, _, checked, h⟩ := run_bind_eq_ok.mp h
  obtain ⟨quote, rfl⟩ := run_throwIf_eq_ok.mp checked
  obtain ⟨m, front⟩ : ∃ m, skip (skip s) = 0x22 :: m :=
    skip_of_peek (by simpa using quote) (by decide)
  rw [skip_skip] at h
  obtain ⟨k, a, got, h⟩ := run_bind_eq_ok.mp h
  have key := parseString_sound front got
  rw [skip_skip] at key
  obtain ⟨b, named, h⟩ := consumed_cases h
  obtain ⟨v, c, parsed, h⟩ := run_bind_eq_ok.mp h
  have separator := structural_skip named
  have value := sound.value parsed
  obtain ⟨closed, t, consumed, h⟩ := run_bind_eq_ok.mp h
  cases closed with
  | true =>
    obtain ⟨rfl, rfl⟩ := run_pure_eq_ok.mp h
    exact ⟨[(k, v)], c, rfl, .member key separator value,
      structural_of_skip (consume_true_cases consumed)⟩
  | false =>
    obtain ⟨u, next, h⟩ := consumed_cases h
    obtain ⟨ms, e, rfl, members, close⟩ := sound.object h
    rw [consume_false_cases consumed, skip_skip] at next
    exact ⟨(k, v) :: ms, e, rfl, .members key separator value (structural_skip next) members, close⟩

theorem sound (stops : SignStops F.stod) (n : ℕ) : Sound F n := by
  induction n with
  | zero =>
    constructor
    · intro s v r h
      cases h
    · intro s a vs r h
      cases h
    · intro s o o' r h
      cases h
  | succ n ih => exact ⟨parseValue_sound stops ih, arrayLoop_sound ih, objectLoop_sound ih⟩

theorem skip_length_le (s : ByteString) : (skip s).length ≤ s.length :=
  (suffix_of_ws (ws_skip s)).length_le

theorem length_lt_of_token {l r : ByteString} (h : Token l r) :
    (skip r).length < (skip l).length := by
  rw [h.skip_eq]
  obtain ⟨c, m, rfl, -, rest⟩ := h
  have := skip_length_le r
  have := rest.length_le
  rw [List.length_cons]
  omega

theorem length_lt_of_structural {c : U8} {l r : ByteString} (h : Structural c l r)
    (token : isSpace c = false) : (skip r).length < (skip l).length := by
  obtain ⟨m, front, behind⟩ := skip_of_structural h token
  have := skip_length_le m
  rw [front, ← behind, List.length_cons]
  omega

theorem token_of_literal {name l r : ByteString} (h : Spaced name l r) (solid : Solid name) :
    Token l r := by
  cases name with
  | nil => exact absurd rfl solid.named
  | cons c name => exact token_of_spaced h (solid.letters c List.mem_cons_self)

/-- A phrase takes a character other than whitespace. -/
theorem length_lt_of_derives {stod : ByteString → Option D} {p : Phrase D} {l r : ByteString}
    (h : Derives Spaced stod p l r) : (skip r).length < (skip l).length := by
  induction h with
  | null spaced => exact length_lt_of_token (token_of_literal spaced solid_null)
  | true spaced => exact length_lt_of_token (token_of_literal spaced solid_true)
  | false spaced => exact length_lt_of_token (token_of_literal spaced solid_false)
  | number number _ => exact length_lt_of_token (token_of_number number)
  | string str => exact length_lt_of_token (token_of_str str)
  | emptyArray front close =>
    exact (length_lt_of_structural close rfl).trans (length_lt_of_structural front rfl)
  | array front _ close ih =>
    exact ((length_lt_of_structural close rfl).trans ih).trans (length_lt_of_structural front rfl)
  | emptyObject front close =>
    exact (length_lt_of_structural close rfl).trans (length_lt_of_structural front rfl)
  | object front _ close ih =>
    exact ((length_lt_of_structural close rfl).trans ih).trans (length_lt_of_structural front rfl)
  | element _ ih => exact ih
  | elements _ comma _ ihv ihs => exact (ihs.trans (length_lt_of_structural comma rfl)).trans ihv
  | member key colon _ ih =>
    exact (ih.trans (length_lt_of_structural colon rfl)).trans (length_lt_of_token (token_of_str key))
  | members key colon _ comma _ ihv ihs =>
    exact (((ihs.trans (length_lt_of_structural comma rfl)).trans ihv).trans
      (length_lt_of_structural colon rfl)).trans (length_lt_of_token (token_of_str key))

theorem number_head {l r : ByteString} (h : Number l r) :
    ∃ c m, l = c :: m ∧ (c = 0x2D ∨ isDigit c) := by
  obtain ⟨a, b, _, minus, int, -, -⟩ := h
  rcases minus with rfl | rfl
  · cases int with
    | zero => exact ⟨_, _, rfl, .inr rfl⟩
    | digit first => exact ⟨_, _, rfl, .inr (Json.isDigit_of_isDigit19 first)⟩
    | digits first _ => exact ⟨_, _, rfl, .inr (Json.isDigit_of_isDigit19 first)⟩
  · exact ⟨_, _, rfl, .inl rfl⟩

theorem literal_head {name l r : ByteString} (h : Spaced name l r) (solid : Solid name) :
    l.head? = name.head? := by
  cases name with
  | nil => exact absurd rfl solid.named
  | cons c name =>
    obtain ⟨m, rfl, -⟩ := h
    rfl

/-- No phrase starts with a closing bracket. -/
theorem head_of_derives {stod : ByteString → Option D} {p : Phrase D} {l r : ByteString}
    (h : Derives Spaced stod p l r) :
    (skip l).head? ≠ some 0x5D ∧ (skip l).head? ≠ some 0x7D := by
  have literal : ∀ {name l r : ByteString}, Spaced name l r → Solid name →
      (skip l).head? = name.head? := by
    intro name l r spaced solid
    rw [(token_of_literal spaced solid).skip_eq, literal_head spaced solid]
  have structural : ∀ {c : U8} {l r : ByteString}, Structural c l r → isSpace c = false →
      (skip l).head? = some c := by
    intro c l r front token
    obtain ⟨m, first, -⟩ := skip_of_structural front token
    rw [first]
    rfl
  have quote : ∀ {l s r : ByteString}, Str l s r → (skip l).head? = some 0x22 := by
    intro l s r str
    rw [(token_of_str str).skip_eq]
    obtain ⟨-⟩ := str
    rfl
  induction h with
  | null spaced =>
    rw [literal spaced solid_null]
    decide
  | true spaced =>
    rw [literal spaced solid_true]
    decide
  | false spaced =>
    rw [literal spaced solid_false]
    decide
  | number number _ =>
    rw [(token_of_number number).skip_eq]
    obtain ⟨c, m, eq, rfl | digit⟩ := number_head number
    · rw [eq, List.head?_cons]
      decide
    · rw [eq]
      constructor
      all_goals
        rintro ⟨⟩
        cases digit
  | string str =>
    rw [quote str]
    decide
  | emptyArray front _ | array front _ _ _ | emptyObject front _ | object front _ _ _ =>
    rw [structural front rfl]
    decide
  | element _ ih | elements _ _ _ ih _ => exact ih
  | member key _ _ _ | members key _ _ _ _ _ _ =>
    rw [quote key]
    decide

theorem delimited_of_skip {c : U8} {r m : ByteString} (h : skip r = c :: m) (ends : isDelimiter c) :
    Delimited r := by
  intro b first
  cases r with
  | nil => cases first
  | cons b' r =>
    cases first
    cases space : isSpace b with
    | true => simp [isDelimiter, space]
    | false =>
      rw [skip_of_not_space space] at h
      cases h
      exact ends

/-- The parser, from any text that differs from the phrase in leading whitespace only,
reads the phrase and stops behind it. -/
def Parses (F : Doubles D) : Phrase D → ByteString → ByteString → Prop
  | .value v, l, r => ∀ s n, Delimited r → skip s = skip l → 2 * (skip l).length < n →
      ∃ t, (parseValue F n).run s = .ok v t ∧ skip t = skip r
  | .elements vs, l, r => ∀ s n a m, skip s = skip l → skip r = 0x5D :: m →
      2 * (skip l).length + 1 < n → (arrayLoop F n a).run s = .ok (a ++ vs) m
  | .members ms, l, r => ∀ s n o m, skip s = skip l → skip r = 0x7D :: m →
      2 * (skip l).length + 1 < n →
        (objectLoop F n o).run s = .ok (ms.foldl (fun o m => Json.assign m.1 m.2 o) o) m

theorem run_literal {name l r : ByteString} {v : Json D} (h : Spaced name l r) (solid : Solid name) :
    (expect name >>= fun _ => (pure v : Parser (Json D))).run l = .ok v r := by
  cases name with
  | nil => exact absurd rfl solid.named
  | cons c name =>
    obtain ⟨m, rfl, rest⟩ := h
    exact run_bind_of_ok ((run_expect_eq_ok solid.letters).mpr (.cons .nil rest))

theorem run_value {s m : ByteString} {c : U8} (n : ℕ) (front : skip s = c :: m) :
    (parseValue F (n + 1)).run s =
      (if c = 0x22 then do return .string (← parseString)
      else if c = 0x7B then parseObject (objectLoop F n [])
      else if c = 0x5B then parseArray (arrayLoop F n [])
      else if c = 0x74 then do
        expect (ascii "true")
        return .bool true
      else if c = 0x66 then do
        expect (ascii "false")
        return .bool false
      else if c = 0x6E then do
        expect (ascii "null")
        return .null
      else if c = 0x2D ∨ isDigit c then parseNumber F
      else fail .unexpectedToken : Parser (Json D)).run (c :: m) := by
  rw [parseValue, run_bind_of_ok (run_ws s), run_bind_of_ok (run_peek (skip s)), skip_skip, front]
  rfl

theorem parses_array {vs : List (Json D)} {l a b r : ByteString} (front : Structural 0x5B l a)
    (elements : Derives Spaced F.stod (.elements vs) a b) (close : Structural 0x5D b r)
    (ih : Parses F (.elements vs) a b) : Parses F (.value (.array vs)) l r := by
  intro s n _ same bound
  cases n with
  | zero => omega
  | succ n =>
    obtain ⟨m, first, behind⟩ := skip_of_structural front rfl
    obtain ⟨t, last, rest⟩ := skip_of_structural close rfl
    have shorter := length_lt_of_structural front rfl
    have looped := ih (skip m) n [] t (by rw [skip_skip, behind]) last (by omega)
    have opened : (skip m).head? ≠ some 0x5D := behind ▸ (head_of_derives elements).1
    refine ⟨t, ?_, rest⟩
    rw [run_value n (same.trans first)]
    exact run_enclosed_loop (skip_of_not_space rfl) opened looped

theorem parses_object {ms : List (ByteString × Json D)} {l a b r : ByteString}
    (front : Structural 0x7B l a) (members : Derives Spaced F.stod (.members ms) a b)
    (close : Structural 0x7D b r) (ih : Parses F (.members ms) a b) :
    Parses F (.value (.object (Json.collect ms))) l r := by
  intro s n _ same bound
  cases n with
  | zero => omega
  | succ n =>
    obtain ⟨m, first, behind⟩ := skip_of_structural front rfl
    obtain ⟨t, last, rest⟩ := skip_of_structural close rfl
    have shorter := length_lt_of_structural front rfl
    have looped := ih (skip m) n [] t (by rw [skip_skip, behind]) last (by omega)
    have opened : (skip m).head? ≠ some 0x7D := behind ▸ (head_of_derives members).2
    refine ⟨t, ?_, rest⟩
    rw [run_value n (same.trans first)]
    exact run_enclosed_loop (skip_of_not_space rfl) opened looped

theorem parses_emptyArray {l m r : ByteString} (front : Structural 0x5B l m)
    (close : Structural 0x5D m r) : Parses F (.value (.array [])) l r := by
  intro s n _ same bound
  cases n with
  | zero => omega
  | succ n =>
    obtain ⟨a, first, behind⟩ := skip_of_structural front rfl
    obtain ⟨t, last, rest⟩ := skip_of_structural close rfl
    refine ⟨t, ?_, rest⟩
    rw [run_value n (same.trans first)]
    exact run_enclosed_empty (skip_of_not_space rfl) (behind.trans last)

theorem parses_emptyObject {l m r : ByteString} (front : Structural 0x7B l m)
    (close : Structural 0x7D m r) : Parses F (.value (.object [])) l r := by
  intro s n _ same bound
  cases n with
  | zero => omega
  | succ n =>
    obtain ⟨a, first, behind⟩ := skip_of_structural front rfl
    obtain ⟨t, last, rest⟩ := skip_of_structural close rfl
    refine ⟨t, ?_, rest⟩
    rw [run_value n (same.trans first)]
    exact run_enclosed_empty (skip_of_not_space rfl) (behind.trans last)

theorem parses_string {l u r : ByteString} (str : Str l u r) : Parses F (.value (.string u)) l r := by
  intro s n _ same bound
  cases n with
  | zero => omega
  | succ n =>
    have whole := (token_of_str str).skip_eq
    obtain ⟨chars⟩ := str
    rw [run_value n (same.trans whole)]
    have read := run_parseString_eq_ok.mpr ⟨0x22, _, skip_of_not_space rfl, chars⟩
    exact ⟨r, run_bind_of_ok read, rfl⟩

theorem parses_number {num r : ByteString} {d : D} (number : Number (num ++ r) r)
    (converted : F.stod num = some d) : Parses F (.value (.number d)) (num ++ r) r := by
  intro s n behind same bound
  cases n with
  | zero => omega
  | succ n =>
    have whole := (token_of_number number).skip_eq
    obtain ⟨c, m, first, head⟩ := number_head number
    have others : ∀ b : U8, b ≠ 0x2D → isDigit b = false → c ≠ b := by
      rintro b minus other rfl
      rcases head with eq | digit
      · exact minus eq
      · rw [other] at digit
        cases digit
    refine ⟨r, ?_, rfl⟩
    rw [run_value n (same.trans (whole.trans first)), if_neg (others _ (by decide) rfl),
      if_neg (others _ (by decide) rfl), if_neg (others _ (by decide) rfl),
      if_neg (others _ (by decide) rfl), if_neg (others _ (by decide) rfl),
      if_neg (others _ (by decide) rfl), if_pos head, ← first]
    exact parseNumber_complete number converted behind whole

theorem parses_literal {name l r : ByteString} {c : U8} {v : Json D} (spaced : Spaced name l r)
    (solid : Solid name) (first : name.head? = some c)
    (read : ∀ n m s, skip s = c :: m → (parseValue F (n + 1)).run s =
      (expect name >>= fun _ => (pure v : Parser (Json D))).run (c :: m)) :
    Parses F (.value v) l r := by
  intro s n _ same bound
  cases n with
  | zero => omega
  | succ n =>
    have whole := (token_of_literal spaced solid).skip_eq
    obtain ⟨m, rfl⟩ := List.head?_eq_some_iff.mp ((literal_head spaced solid).trans first)
    rw [read n m s (same.trans whole)]
    exact ⟨r, run_literal spaced solid, rfl⟩

theorem run_separator {α : Type} {c : U8} {e : JsonFault} {f : Parser α} {s m : ByteString}
    (front : skip s = c :: m) :
    (consume c >>= fun taken => throwIf (!taken) e >>= fun _ => f).run s = f.run m := by
  rw [run_bind_of_ok (run_consume_true front)]
  rfl

theorem parses_element {v : Json D} {l r : ByteString} (ih : Parses F (.value v) l r) :
    Parses F (.elements [v]) l r := by
  intro s n a m same close bound
  cases n with
  | zero => omega
  | succ n =>
    obtain ⟨t, read, rest⟩ := ih s n (delimited_of_skip close rfl) same (by omega)
    rw [arrayLoop, run_bind_of_ok read, run_bind_of_ok (run_consume_true (rest.trans close))]
    rfl

theorem parses_elements {v : Json D} {vs : List (Json D)} {l a b r : ByteString}
    (shorter : (skip a).length < (skip l).length) (comma : Structural 0x2C a b)
    (ihv : Parses F (.value v) l a) (ihs : Parses F (.elements vs) b r) :
    Parses F (.elements (v :: vs)) l r := by
  intro s n us m same close bound
  cases n with
  | zero => omega
  | succ n =>
    obtain ⟨u, next, behind⟩ := skip_of_structural comma rfl
    have less := length_lt_of_structural comma rfl
    obtain ⟨t, read, rest⟩ := ihv s n (delimited_of_skip next rfl) same (by omega)
    have further : (skip t).head? ≠ some 0x5D := by
      rw [rest, next, List.head?_cons]
      decide
    rw [arrayLoop, run_bind_of_ok read, run_bind_of_ok (run_consume_false further), rest, next]
    change (consume 0x2C >>= fun taken => throwIf (!taken) _ >>= fun _ =>
      arrayLoop F n (us ++ [v])).run (0x2C :: u) = _
    rw [run_separator (skip_of_not_space rfl),
      ihs u n (us ++ [v]) m behind close (by omega), List.append_assoc, List.singleton_append]

theorem run_objectLoop {k l u b s : ByteString} (n : ℕ) (o : List (ByteString × Json D))
    (key : Str l k u) (named : skip u = 0x3A :: b) (same : skip s = skip l) :
    (objectLoop F (n + 1) o).run s = (do
      let v ← parseValue F n
      if ← consume 0x7D then return Json.assign k v o
      else
        throwIf (!(← consume 0x2C)) (.thrown .expectedObjectComma)
        objectLoop F n (Json.assign k v o) : Parser (List (ByteString × Json D))).run b := by
  have whole := (token_of_str key).skip_eq
  obtain ⟨chars⟩ := key
  have read := run_parseString_eq_ok.mpr ⟨0x22, _, skip_of_not_space rfl, chars⟩
  rw [objectLoop, run_bind_of_ok (run_ws s), run_bind_of_ok (run_peek (skip s)), skip_skip, same,
    whole]
  change (parseString >>= _).run _ = _
  rw [run_bind_of_ok read]
  exact run_separator named

theorem parses_member {k : ByteString} {v : Json D} {l a b r : ByteString} (key : Str l k a)
    (colon : Structural 0x3A a b) (ih : Parses F (.value v) b r) :
    Parses F (.members [(k, v)]) l r := by
  intro s n o m same close bound
  cases n with
  | zero => omega
  | succ n =>
    obtain ⟨u, named, behind⟩ := skip_of_structural colon rfl
    have shorter := length_lt_of_token (token_of_str key)
    have less := length_lt_of_structural colon rfl
    obtain ⟨t, read, rest⟩ := ih u n (delimited_of_skip close rfl) behind (by omega)
    rw [run_objectLoop n o key named same, run_bind_of_ok read,
      run_bind_of_ok (run_consume_true (rest.trans close))]
    rfl

theorem parses_members {k : ByteString} {v : Json D} {ms : List (ByteString × Json D)}
    {l a b c d r : ByteString} (key : Str l k a) (colon : Structural 0x3A a b)
    (shorter : (skip c).length < (skip b).length) (comma : Structural 0x2C c d)
    (ihv : Parses F (.value v) b c) (ihs : Parses F (.members ms) d r) :
    Parses F (.members ((k, v) :: ms)) l r := by
  intro s n o m same close bound
  cases n with
  | zero => omega
  | succ n =>
    obtain ⟨u, named, behind⟩ := skip_of_structural colon rfl
    obtain ⟨w, next, behind'⟩ := skip_of_structural comma rfl
    have keyed := length_lt_of_token (token_of_str key)
    have less := length_lt_of_structural colon rfl
    have less' := length_lt_of_structural comma rfl
    obtain ⟨t, read, rest⟩ := ihv u n (delimited_of_skip next rfl) behind (by omega)
    have further : (skip t).head? ≠ some 0x7D := by
      rw [rest, next, List.head?_cons]
      decide
    rw [run_objectLoop n o key named same, run_bind_of_ok read,
      run_bind_of_ok (run_consume_false further), rest, next]
    change (consume 0x2C >>= fun taken => throwIf (!taken) _ >>= fun _ =>
      objectLoop F n (Json.assign k v o)).run (0x2C :: w) = _
    rw [run_separator (skip_of_not_space rfl), ihs w n (Json.assign k v o) m behind' close (by omega)]
    rfl

theorem parses {p : Phrase D} {l r : ByteString} (h : Derives Spaced F.stod p l r) :
    Parses F p l r := by
  induction h with
  | null spaced => exact parses_literal spaced solid_null rfl fun n _ _ front => run_value n front
  | true spaced => exact parses_literal spaced solid_true rfl fun n _ _ front => run_value n front
  | false spaced => exact parses_literal spaced solid_false rfl fun n _ _ front => run_value n front
  | number number converted => exact parses_number number converted
  | string str => exact parses_string str
  | emptyArray front close => exact parses_emptyArray front close
  | array front elements close ih => exact parses_array front elements close ih
  | emptyObject front close => exact parses_emptyObject front close
  | object front members close ih => exact parses_object front members close ih
  | element _ ih => exact parses_element ih
  | elements value comma _ ihv ihs =>
    exact parses_elements (length_lt_of_derives value) comma ihv ihs
  | member key colon _ ih => exact parses_member key colon ih
  | members key colon value comma _ ihv ihs =>
    exact parses_members key colon (length_lt_of_derives value) comma ihv ihs

theorem run_parseText_eq_ok {n : ℕ} {s t : ByteString} {v : Json D} :
    (parseText F n).run s = .ok v t ↔
      ∃ r, (parseValue F n).run s = .ok v r ∧ skip r = [] ∧ t = [] := by
  rw [parseText, run_bind_eq_ok]
  constructor
  · rintro ⟨w, r, parsed, h⟩
    obtain ⟨_, _, got, h⟩ := run_bind_eq_ok.mp h
    cases got
    obtain ⟨_, _, checked, h⟩ := run_bind_eq_ok.mp h
    obtain ⟨done, rfl⟩ := run_throwIf_eq_ok.mp checked
    obtain ⟨rfl, rfl⟩ := run_pure_eq_ok.mp h
    have empty : skip r = [] := by simpa using done
    exact ⟨r, parsed, empty, empty⟩
  · rintro ⟨r, parsed, empty, rfl⟩
    refine ⟨v, r, parsed, ?_⟩
    change (throwIf (!(skip r).isEmpty) _ >>= fun _ => (pure v : Parser (Json D))).run (skip r) = _
    rw [empty]
    rfl

theorem parse_eq_ok {text : ByteString} {v : Json D} :
    Json.parse F text = .ok v ↔
      ∃ r, (parseValue F (2 * text.length + 1)).run text = .ok v r ∧ skip r = [] := by
  have run : Json.parse F text = .ok v ↔
      ∃ t, (parseText F (2 * text.length + 1)).run text = .ok v t := by
    rw [Json.parse]
    cases (parseText F (2 * text.length + 1)).run text <;> simp
  simp only [run, run_parseText_eq_ok]
  simp

theorem text_of_parse (stops : SignStops F.stod) {text : ByteString} {v : Json D}
    (h : Json.parse F text = .ok v) : Text Spaced F.stod text v := by
  obtain ⟨r, parsed, empty⟩ := parse_eq_ok.mp h
  exact ⟨skip text, r, ws_skip text, (sound stops _).value parsed, empty ▸ ws_skip r⟩

theorem parse_of_text {text : ByteString} {v : Json D} (h : Text Spaced F.stod text v) :
    Json.parse F text = .ok v := by
  obtain ⟨l, r, before, derives, behind⟩ := h
  have same := skip_eq_of_ws before
  have done : skip r = [] := skip_eq_of_ws behind
  have ends : Delimited r := by
    cases behind with
    | nil =>
      intro c first
      cases first
    | cons space _ =>
      intro c first
      cases first
      simp [isDelimiter, space]
  have bound := skip_length_le text
  obtain ⟨t, parsed, rest⟩ := parses derives text _ ends same
    (show 2 * (skip l).length < 2 * text.length + 1 by rw [← same]; omega)
  exact parse_eq_ok.mpr ⟨t, parsed, rest.trans done⟩

/-- The parser returns a value exactly when the text, with its literals spaced at will,
denotes it. -/
theorem parse_eq_ok_iff (stops : SignStops F.stod) (text : ByteString) (v : Json D) :
    Json.parse F text = .ok v ↔ Text Spaced F.stod text v :=
  ⟨text_of_parse stops, parse_of_text⟩

end NumaFabric.JsonParser
