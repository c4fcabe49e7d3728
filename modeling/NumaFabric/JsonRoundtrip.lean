import NumaFabric.JsonStrictness

/-! What the writer emits is JSON that denotes the value written, so the parser returns
it, from the compact and from the indented form. -/
namespace NumaFabric.JsonParser
open FaultState JsonGrammar Json
open Std

variable {D : Type} {F : Doubles D}

/-- The conversions are exact on the integers that a `double` represents without gaps. -/
structure Faithful (F : Doubles D) : Prop where
  eq : ∀ i : ℤ, i.natAbs ≤ 2 ^ 53 → F.eq (F.ofInt64 i) (F.ofInt64 i)
  toInt64 : ∀ i : ℤ, i.natAbs ≤ 2 ^ 53 → F.toInt64 (F.ofInt64 i) = i
  stod : ∀ i : ℤ, i.natAbs ≤ 2 ^ 53 → F.stod (integer i) = some (F.ofInt64 i)

/-- The values that are built from integers, and whose objects are maps. -/
inductive Built (F : Doubles D) : Json D → Prop
  | null : Built F .null
  | bool (b : Bool) : Built F (.bool b)
  | number {i : ℤ} : i.natAbs ≤ 2 ^ 53 → Built F (.number (F.ofInt64 i))
  | string (s : ByteString) : Built F (.string s)
  | array {a : List (Json D)} : (∀ v ∈ a, Built F v) → Built F (.array a)
  | object {o : List (ByteString × Json D)} :
      Ascending o → (∀ e ∈ o, Built F e.2) → Built F (.object o)

/-- The four digits of a control character name it. -/
theorem codePoint_hex4 : ∀ c : U8, c < 0x20 →
    JsonParser.codePoint (hex4 c) = some (c.setWidth 32) ∧ utf8 (c.setWidth 32) = [c] := by
  decide +kernel

theorem chars_escape (c : U8) {l s r : ByteString} (rest : Chars l s r) :
    Chars (escape c ++ l) (c :: s) r := by
  unfold escape
  split_ifs with h₁ h₂ h₃ h₄ h₅ h₆ h₇ h₈
  · subst h₁
    exact .escape .quotationMark rest
  · subst h₂
    exact .escape .reverseSolidus rest
  · subst h₃
    exact .escape .lineFeed rest
  · subst h₄
    exact .escape .carriageReturn rest
  · subst h₅
    exact .escape .tab rest
  · subst h₆
    exact .escape .backspace rest
  · subst h₇
    exact .escape .formFeed rest
  · obtain ⟨named, encoded⟩ := codePoint_hex4 c h₈
    obtain ⟨x, y, z, w, hx, hy, hz, hw, eq⟩ := codePoint_eq_some.mp named
    have unicode := Chars.unicode hx hy hz hw rest
    rwa [eq, encoded] at unicode
  · exact .unescaped (BitVec.not_lt.mp h₈) h₁ h₂ rest

theorem str_writeString (s r : ByteString) : Str (writeString s ++ r) s r := by
  have chars : Chars (s.flatMap escape ++ 0x22 :: r) s r := by
    induction s with
    | nil => exact .close
    | cons c s ih =>
      rw [List.flatMap_cons, List.append_assoc]
      exact chars_escape c ih
  simpa [writeString] using Str.quote chars

def digitByte (n : ℕ) : U8 := BitVec.ofNat 8 n.digitChar.toNat

theorem natural_of_lt {n : ℕ} (h : n < 10) : natural n = [digitByte n] := by
  rw [natural, Nat.toDigits_of_lt_base h]
  rfl

theorem natural_of_le {n : ℕ} (h : 10 ≤ n) :
    natural n = natural (n / 10) ++ [digitByte (n % 10)] := by
  rw [natural, Nat.toDigits_of_base_le (by decide) h, List.map_append]
  rfl

theorem isDigit_digitByte : ∀ n < 10, isDigit (digitByte n) := by decide

theorem isDigit19_digitByte : ∀ n < 10, 0 < n → isDigit19 (digitByte n) := by decide

/-- The text of a positive number is a digit other than zero and more digits. -/
theorem natural_cons {n : ℕ} (positive : 0 < n) :
    ∃ d ds, natural n = d :: ds ∧ isDigit19 d ∧ ∀ x ∈ ds, isDigit x := by
  induction n using Nat.strong_induction_on with
  | _ n ih =>
    by_cases small : n < 10
    · exact ⟨_, [], natural_of_lt small, isDigit19_digitByte n small positive, by simp⟩
    · obtain ⟨d, ds, eq, first, rest⟩ := ih (n / 10) (by omega) (by omega)
      refine ⟨d, ds ++ [digitByte (n % 10)], ?_, first, ?_⟩
      · rw [natural_of_le (by omega), eq, List.cons_append]
      · intro x hx
        rcases List.mem_append.mp hx with hx | hx
        · exact rest x hx
        · rw [List.mem_singleton.mp hx]
          exact isDigit_digitByte _ (Nat.mod_lt _ (by decide))

theorem digits_append {d : U8} {ds : ByteString} (r : ByteString) (first : isDigit d)
    (rest : ∀ x ∈ ds, isDigit x) : Digits (d :: ds ++ r) r := by
  induction ds generalizing d with
  | nil => exact .one first
  | cons e ds ih =>
    exact .more first (ih (rest e List.mem_cons_self) fun x hx => rest x (List.mem_cons_of_mem _ hx))

theorem int_natural (n : ℕ) (r : ByteString) : Int (natural n ++ r) r := by
  rcases Nat.eq_zero_or_pos n with rfl | positive
  · exact .zero
  · obtain ⟨d, ds, eq, first, rest⟩ := natural_cons positive
    rw [eq]
    cases ds with
    | nil => exact .digit first
    | cons e ds =>
      exact .digits first (digits_append r (rest e List.mem_cons_self)
        fun x hx => rest x (List.mem_cons_of_mem _ hx))

theorem number_integer (i : ℤ) (r : ByteString) : Number (integer i ++ r) r := by
  rw [integer]
  split_ifs
  · exact ⟨_, r, r, .inr rfl, int_natural _ r, .inl rfl, .inl rfl⟩
  · exact ⟨_, r, r, .inl rfl, int_natural _ r, .inl rfl, .inl rfl⟩

theorem ws_newline (pretty : Bool) (indent : ℕ) (r : ByteString) :
    Ws (newline pretty indent ++ r) r := by
  have spaces : ∀ n, Ws (List.replicate n 0x20 ++ r) r := by
    intro n
    induction n with
    | zero => exact .nil
    | succ n ih => exact .cons rfl ih
  cases pretty with
  | false => exact .nil
  | true => exact .cons rfl (spaces _)

theorem structural_newline (c : U8) (pretty : Bool) (indent : ℕ) (r : ByteString) :
    Structural c (c :: (newline pretty indent ++ r)) r :=
  ⟨_, .nil, ws_newline pretty indent r⟩

/-- The phrase denotes the value, whatever stands behind it. -/
def Denotes (F : Doubles D) (text : ByteString) (p : Phrase D) : Prop :=
  ∀ r, Derives Exact F.stod p (text ++ r) r

theorem denotes_number (faithful : Faithful F) {i : ℤ} (small : i.natAbs ≤ 2 ^ 53) :
    Denotes F (writeNumber F (F.ofInt64 i)) (.value (.number (F.ofInt64 i))) := by
  intro r
  rw [writeNumber, faithful.toInt64 i small, if_pos (faithful.eq i small)]
  exact .number (number_integer i r) (faithful.stod i small)

theorem denotes_elements {pretty : Bool} {indent : ℕ} {v : Json D} {a : List (Json D)}
    (each : ∀ w ∈ v :: a, Denotes F (write F pretty (indent + 1) w) (.value w)) :
    Denotes F (write F pretty (indent + 1) v ++ writeElements F pretty indent [0x2C] a)
      (.elements (v :: a)) := by
  induction a generalizing v with
  | nil =>
    intro r
    simpa [writeElements] using Derives.element (each v List.mem_cons_self r)
  | cons w a ih =>
    intro r
    have rest := ih (fun x hx => each x (List.mem_cons_of_mem _ hx)) r
    have comma := structural_newline 0x2C pretty indent
      (write F pretty (indent + 1) w ++ writeElements F pretty indent [0x2C] a ++ r)
    simpa [writeElements] using Derives.elements (each v List.mem_cons_self _) comma rest

theorem structural_colon (pretty : Bool) (r : ByteString) :
    Structural 0x3A (0x3A :: ((if pretty then [0x20] else []) ++ r)) r := by
  cases pretty with
  | false => exact ⟨r, .nil, .nil⟩
  | true => exact ⟨_, .nil, .cons rfl .nil⟩

theorem denotes_members {pretty : Bool} {indent : ℕ} {e : ByteString × Json D}
    {o : List (ByteString × Json D)}
    (each : ∀ f ∈ e :: o, Denotes F (write F pretty (indent + 1) f.2) (.value f.2)) :
    Denotes F (writeString e.1 ++ [0x3A] ++ (if pretty then [0x20] else []) ++
      write F pretty (indent + 1) e.2 ++ writeEntries F pretty indent [0x2C] o)
        (.members (e :: o)) := by
  induction o generalizing e with
  | nil =>
    intro r
    have value := each e List.mem_cons_self r
    have colon := structural_colon pretty (write F pretty (indent + 1) e.2 ++ r)
    simpa [writeEntries] using Derives.member (str_writeString e.1 _) colon value
  | cons f o ih =>
    intro r
    have rest := ih (fun x hx => each x (List.mem_cons_of_mem _ hx)) r
    have comma := structural_newline 0x2C pretty indent
      (writeString f.1 ++ [0x3A] ++ (if pretty then [0x20] else []) ++
        write F pretty (indent + 1) f.2 ++ writeEntries F pretty indent [0x2C] o ++ r)
    have value := each e List.mem_cons_self
    have colon := structural_colon pretty (write F pretty (indent + 1) e.2 ++
      writeEntries F pretty indent [0x2C] (f :: o) ++ r)
    have first := value (writeEntries F pretty indent [0x2C] (f :: o) ++ r)
    simp only [writeEntries, List.append_assoc, List.cons_append, List.nil_append] at *
    exact Derives.members (str_writeString e.1 _) colon first comma rest

theorem denotes_array {pretty : Bool} {indent : ℕ} {a : List (Json D)}
    (each : ∀ v ∈ a, Denotes F (write F pretty (indent + 1) v) (.value v)) :
    Denotes F (write F pretty indent (.array a)) (.value (.array a)) := by
  intro r
  cases a with
  | nil =>
    change Derives Exact F.stod _ (0x5B :: 0x5D :: r) r
    exact .emptyArray ⟨_, .nil, .nil⟩ ⟨r, .nil, .nil⟩
  | cons v a =>
    have elements := denotes_elements each (0x5D :: r)
    have front := structural_newline 0x5B pretty indent
      (write F pretty (indent + 1) v ++ writeElements F pretty indent [0x2C] a ++ 0x5D :: r)
    simpa [write, writeElements] using Derives.array front elements ⟨r, .nil, .nil⟩

theorem denotes_object {pretty : Bool} {indent : ℕ} {o : List (ByteString × Json D)}
    (ascending : Ascending o)
    (each : ∀ e ∈ o, Denotes F (write F pretty (indent + 1) e.2) (.value e.2)) :
    Denotes F (write F pretty indent (.object o)) (.value (.object o)) := by
  intro r
  cases o with
  | nil =>
    change Derives Exact F.stod _ (0x7B :: 0x7D :: r) r
    exact .emptyObject ⟨_, .nil, .nil⟩ ⟨r, .nil, .nil⟩
  | cons e o =>
    have members := denotes_members each (0x7D :: r)
    have front := structural_newline 0x7B pretty indent
      (writeString e.1 ++ [0x3A] ++ (if pretty then [0x20] else []) ++
        write F pretty (indent + 1) e.2 ++ writeEntries F pretty indent [0x2C] o ++ 0x7D :: r)
    have whole := Derives.object front members ⟨r, .nil, .nil⟩
    rw [collect_of_ascending ascending] at whole
    simpa [write, writeEntries] using whole

theorem value_natural (n : ℕ) :
    (natural n).foldl (fun n d => 10 * n + (d.toNat - 48)) 0 = n := by
  induction n using Nat.strong_induction_on with
  | _ n ih =>
    have digit : ∀ d < 10, (digitByte d).toNat - 48 = d := by decide
    by_cases small : n < 10
    · simp [natural_of_lt small, digit n small]
    · have last := digit (n % 10) (Nat.mod_lt _ (by decide))
      rw [natural_of_le (by omega), List.foldl_append, ih _ (by omega), List.foldl_cons, last]
      exact Nat.div_add_mod n 10

theorem natural_digits (n : ℕ) :
    natural n ≠ [] ∧ (natural n).all isDigit ∧ (natural n).head? ≠ some 0x2D := by
  rcases Nat.eq_zero_or_pos n with rfl | positive
  · decide
  · obtain ⟨d, ds, eq, first, rest⟩ := natural_cons positive
    have digit := isDigit_of_isDigit19 first
    rw [eq]
    refine ⟨by simp, by simpa [digit] using rest, ?_⟩
    rintro ⟨⟩
    cases digit

theorem readNatural_natural (n : ℕ) : readNatural (natural n) = some n := by
  obtain ⟨some, digits, -⟩ := natural_digits n
  rw [readNatural, if_pos ⟨some, digits⟩, value_natural]

theorem readInteger_integer (i : ℤ) : readInteger (integer i) = some i := by
  rw [integer]
  split_ifs with negative
  · rw [readInteger, if_pos List.head?_cons, List.tail_cons, readNatural_natural, Option.map_some]
    congr 1
    omega
  · rw [readInteger, if_neg (natural_digits _).2.2, readNatural_natural, Option.map_some]
    congr 1
    omega

theorem faithful_integers : Faithful integers where
  eq i _ := by simp [integers]
  toInt64 i _ := rfl
  stod i _ := readInteger_integer i

/-- What is written denotes the value. -/
theorem denotes_write (faithful : Faithful F) {v : Json D} (built : Built F v) (pretty : Bool)
    (indent : ℕ) : Denotes F (write F pretty indent v) (.value v) := by
  induction built generalizing indent with
  | null => exact fun r => .null rfl
  | bool b =>
    cases b with
    | false => exact fun r => .false rfl
    | true => exact fun r => .true rfl
  | number small => exact denotes_number faithful small
  | string s => exact fun r => .string (str_writeString s r)
  | array _ ih => exact denotes_array fun v hv => ih v hv (indent + 1)
  | object ascending _ ih => exact denotes_object ascending fun e he => ih e he (indent + 1)

theorem text_dump (faithful : Faithful F) {v : Json D} (built : Built F v) (pretty : Bool) :
    Text Exact F.stod (dump F pretty v) v := by
  have derives := denotes_write faithful built pretty 0 []
  rw [List.append_nil] at derives
  exact ⟨_, [], .nil, derives, .nil⟩

/-- Parsing what was dumped, compact or indented, gives the value back. -/
theorem parse_dump (F : Doubles D) (faithful : Faithful F) (v : Json D) (built : Built F v) :
    Json.parse F (dump F false v) = .ok v ∧ Json.parse F (dump F true v) = .ok v :=
  ⟨parse_of_text (text_spaced (text_dump faithful built false)),
    parse_of_text (text_spaced (text_dump faithful built true))⟩

/-- `{"a": [1, -20], "b\n": null}` -/
def sample : Json ℤ :=
  .object [([0x61], .array [.number 1, .number (-20)]), ([0x62, 0x0A], .null)]

theorem built_sample : Built integers sample := by
  refine .object (by decide) ?_
  simp only [List.forall_mem_cons, List.not_mem_nil, false_imp_iff, implies_true, and_true]
  refine ⟨.array ?_, .null⟩
  simp only [List.forall_mem_cons, List.not_mem_nil, false_imp_iff, implies_true, and_true]
  exact ⟨.number (by decide), .number (i := -20) (by decide)⟩

theorem parse_dump_sample :
    Json.parse integers (dump integers false sample) = .ok sample ∧
      Json.parse integers (dump integers true sample) = .ok sample :=
  parse_dump integers faithful_integers sample built_sample

end NumaFabric.JsonParser
