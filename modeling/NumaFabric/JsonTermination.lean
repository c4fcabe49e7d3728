import NumaFabric.JsonAcceptance

/-! The parser returns or throws: the bound that its recursion is given in the model is
never reached. -/
namespace NumaFabric.JsonParser
open FaultState JsonGrammar
open Json (isDigit)

variable {D α β : Type} {F : Doubles D}

/-- Whatever the computation raises, the source raises. -/
def Throws (x : Parser α) : Prop := ∀ s t, x.run s ≠ .error .exhausted t

theorem throws_pure (a : α) : Throws (pure a : Parser α) := by
  intro s t h
  cases h

theorem throws_throwIf (c : Bool) (e : JsonError) :
    Throws (throwIf c (.thrown e) : Parser Unit) := by
  intro s t h
  cases c <;> cases h

theorem Throws.bind {x : Parser α} {f : α → Parser β} (hx : Throws x) (hf : ∀ a, Throws (f a)) :
    Throws (x >>= f) := by
  intro s t h
  cases run : x.run s with
  | ok a u =>
    rw [run_bind_of_ok run] at h
    exact hf a u t h
  | error e u =>
    rw [run_bind_of_error run] at h
    cases h
    exact hx s t run

theorem throws_getChar : Throws getChar := by
  intro s t h
  cases front : skip s with
  | nil =>
    rw [EStateM.run, getChar, front] at h
    cases h
  | cons c m =>
    rw [run_getChar_eq_ok.mpr front] at h
    cases h

theorem throws_consume (c : U8) : Throws (consume c) := by
  intro s t h
  rw [run_consume] at h
  cases h

theorem throws_eof : Throws eof := by
  intro s t h
  cases h

theorem throws_expect (lit : ByteString) : Throws (expect lit) := by
  induction lit with
  | nil => exact throws_pure ()
  | cons c lit ih =>
    exact throws_getChar.bind fun b => (throws_throwIf _ _).bind fun _ => ih

theorem throws_parseString : Throws parseString := by
  refine throws_getChar.bind fun _ => ?_
  have loop : ∀ s out t, stringLoop s out ≠ .error .exhausted t := by
    intro s out t h
    fun_induction stringLoop s out <;> first | contradiction | (cases h)
  exact fun s => loop s []

theorem throws_digits (first : U8 → Bool) (e : JsonError) : Throws (digits first e) := by
  intro s t h
  cases s with
  | nil => cases h
  | cons d s =>
    change (if first d then _ else _) = _ at h
    split_ifs at h
    cases h

theorem throws_parseNumber : Throws (parseNumber F) := by
  have integer : Throws integerPart := by
    refine (throws_consume _).bind fun zero => ?_
    cases zero with
    | true =>
      refine Throws.bind ?_ fun s => throws_throwIf _ _
      intro s t h
      cases h
    | false => exact throws_digits _ _
  have fraction : Throws fractionPart := by
    intro s t h
    cases s with
    | nil => cases h
    | cons c s =>
      change (if c = 0x2E then (digits isDigit .badFraction).run s else .ok () (c :: s)) = _ at h
      split_ifs at h
      exact throws_digits _ _ s t h
  have exponent : Throws exponentPart := by
    intro s t h
    cases s with
    | nil => cases h
    | cons c s =>
      change (if c = 0x65 ∨ c = 0x45 then (digits isDigit .badExponent).run (skipSign s)
        else .ok () (c :: s)) = _ at h
      split_ifs at h
      exact throws_digits _ _ _ t h
  have read : Throws (get : Parser ByteString) := by
    intro s t h
    cases h
  have skipped : Throws ws := by
    intro s t h
    cases h
  refine skipped.bind fun _ => read.bind fun start => (throws_consume _).bind fun _ =>
    integer.bind fun _ => fraction.bind fun _ => exponent.bind fun _ => read.bind fun rest => ?_
  cases F.stod (start.take (start.length - rest.length)) with
  | none =>
    intro s t h
    cases h
  | some d => exact throws_pure _

/-- Behind each call a bound is left that the rest of the text does not use up. -/
structure Bounded (F : Doubles D) (n : ℕ) : Prop where
  value : ∀ s t, 2 * (skip s).length < n → (parseValue F n).run s ≠ .error .exhausted t
  array : ∀ s a t, 2 * (skip s).length + 1 < n → (arrayLoop F n a).run s ≠ .error .exhausted t
  object : ∀ s o t, 2 * (skip s).length + 1 < n → (objectLoop F n o).run s ≠ .error .exhausted t

/-- A bind raises in its first part, or in its second from where the first stopped. -/
theorem error_cases {x : Parser α} {f : α → Parser β} (hx : Throws x) {s t : ByteString}
    (h : (x >>= f).run s = .error .exhausted t) :
    ∃ a u, x.run s = .ok a u ∧ (f a).run u = .error .exhausted t := by
  cases run : x.run s with
  | ok a u => exact ⟨a, u, rfl, by rwa [run_bind_of_ok run] at h⟩
  | error e u =>
    rw [run_bind_of_error run] at h
    cases h
    exact absurd run (hx s t)

theorem error_of_separated {c : U8} {e : JsonError} {f : Parser α} {s t : ByteString}
    (h : (consume c >>= fun taken => throwIf (!taken) (.thrown e) >>= fun _ => f).run s =
      .error .exhausted t) : ∃ m, skip s = c :: m ∧ f.run m = .error .exhausted t := by
  obtain ⟨taken, u, consumed, h⟩ := error_cases (throws_consume c) h
  obtain ⟨_, _, checked, h⟩ := error_cases (throws_throwIf _ _) h
  obtain ⟨passed, rfl⟩ := run_throwIf_eq_ok.mp checked
  cases taken with
  | true => exact ⟨u, consume_true_cases consumed, h⟩
  | false => cases passed

/-- The loop of an array or an object starts behind the opening bracket. -/
theorem error_of_enclosed {loop : Parser α} {empty : β} {wrap : α → β} {b c : U8}
    {s m t : ByteString} (front : skip s = b :: m)
    (h : (enclosed c empty loop wrap).run s = .error .exhausted t) :
    loop.run (skip m) = .error .exhausted t := by
  rw [run_enclosed front] at h
  obtain ⟨closed, u, consumed, h⟩ := error_cases (throws_consume c) h
  cases closed with
  | true => cases h
  | false =>
    rw [consume_false_cases consumed] at h
    change (loop >>= fun x => pure (wrap x)).run (skip m) = _ at h
    cases run : loop.run (skip m) with
    | ok x r =>
      rw [run_bind_of_ok run] at h
      cases h
    | error e r =>
      rw [run_bind_of_error run] at h
      cases h
      rfl

theorem bounded_value {n : ℕ} (ih : Bounded F n) (s t : ByteString)
    (room : 2 * (skip s).length < n + 1) : (parseValue F (n + 1)).run s ≠ .error .exhausted t := by
  intro h
  rw [parseValue, run_bind_of_ok (run_ws s), run_bind_of_ok (run_peek (skip s)), skip_skip] at h
  generalize peeked : (skip s).headD 0 = c at h
  split_ifs at h with quote brace bracket t f n number
  · exact (throws_parseString.bind fun _ => throws_pure _) _ _ h
  · obtain ⟨m, front⟩ := skip_of_peek (peeked.trans brace) (by decide)
    have less := skip_length_le m
    rw [front, List.length_cons] at room
    exact ih.object _ _ _ (by rw [skip_skip]; omega)
      (error_of_enclosed ((skip_skip s).trans front) h)
  · obtain ⟨m, front⟩ := skip_of_peek (peeked.trans bracket) (by decide)
    have less := skip_length_le m
    rw [front, List.length_cons] at room
    exact ih.array _ _ _ (by rw [skip_skip]; omega)
      (error_of_enclosed ((skip_skip s).trans front) h)
  · exact ((throws_expect _).bind fun _ => throws_pure _) _ _ h
  · exact ((throws_expect _).bind fun _ => throws_pure _) _ _ h
  · exact ((throws_expect _).bind fun _ => throws_pure _) _ _ h
  · exact throws_parseNumber _ _ h
  · cases h

theorem bounded_array (stops : SignStops F.stod) {n : ℕ} (ih : Bounded F n) (s : ByteString)
    (a : List (Json D)) (t : ByteString) (room : 2 * (skip s).length + 1 < n + 1) :
    (arrayLoop F (n + 1) a).run s ≠ .error .exhausted t := by
  intro h
  rw [arrayLoop] at h
  cases parsed : (parseValue F n).run s with
  | error e r =>
    rw [run_bind_of_error parsed] at h
    cases h
    exact ih.value s _ (by omega) parsed
  | ok v r =>
    rw [run_bind_of_ok parsed] at h
    obtain ⟨closed, u, consumed, h⟩ := error_cases (throws_consume _) h
    cases closed with
    | true => cases h
    | false =>
      obtain ⟨m, next, h⟩ := error_of_separated h
      have shorter := length_lt_of_derives ((sound stops n).value parsed)
      rw [consume_false_cases consumed, skip_skip] at next
      have less := skip_length_le m
      rw [next, List.length_cons, skip_skip] at shorter
      exact ih.array _ _ _ (by omega) h

theorem bounded_object (stops : SignStops F.stod) {n : ℕ} (ih : Bounded F n) (s : ByteString)
    (o : List (ByteString × Json D)) (t : ByteString) (room : 2 * (skip s).length + 1 < n + 1) :
    (objectLoop F (n + 1) o).run s ≠ .error .exhausted t := by
  intro h
  rw [objectLoop, run_bind_of_ok (run_ws s), run_bind_of_ok (run_peek (skip s))] at h
  obtain ⟨_, _, checked, h⟩ := error_cases (throws_throwIf _ _) h
  obtain ⟨quote, rfl⟩ := run_throwIf_eq_ok.mp checked
  obtain ⟨m, front⟩ : ∃ m, skip (skip s) = 0x22 :: m :=
    skip_of_peek (by simpa using quote) (by decide)
  obtain ⟨k, u, got, h⟩ := error_cases throws_parseString h
  have keyed := length_lt_of_token (token_of_str (parseString_sound (by rwa [skip_skip]) got))
  obtain ⟨w, named, h⟩ := error_of_separated h
  have less := skip_length_le w
  simp only [named, List.length_cons, skip_skip] at keyed
  cases parsed : (parseValue F n).run w with
  | error e r =>
    rw [run_bind_of_error parsed] at h
    cases h
    exact ih.value w _ (by omega) parsed
  | ok v r =>
    rw [run_bind_of_ok parsed] at h
    obtain ⟨closed, x, consumed, h⟩ := error_cases (throws_consume _) h
    cases closed with
    | true => cases h
    | false =>
      obtain ⟨y, next, h⟩ := error_of_separated h
      have shorter := length_lt_of_derives ((sound stops n).value parsed)
      rw [consume_false_cases consumed, skip_skip] at next
      have less' := skip_length_le y
      rw [next, List.length_cons, skip_skip] at shorter
      exact ih.object _ _ _ (by omega) h

theorem bounded (stops : SignStops F.stod) (n : ℕ) : Bounded F n := by
  induction n with
  | zero =>
    constructor
    · intro s t room
      omega
    · intro s a t room
      omega
    · intro s o t room
      omega
  | succ n ih => exact ⟨bounded_value ih, bounded_array stops ih, bounded_object stops ih⟩

/-- The bound that `parse` sets on the recursion is never reached. -/
theorem parse_ne_exhausted (stops : SignStops F.stod) (text : ByteString) :
    Json.parse F text ≠ .error .exhausted := by
  intro h
  have less := skip_length_le text
  have room : 2 * (skip text).length < 2 * text.length + 1 := by omega
  have never := (bounded stops (2 * text.length + 1)).value text
  rw [Json.parse] at h
  cases run : (parseText F (2 * text.length + 1)).run text with
  | ok v t =>
    rw [run] at h
    cases h
  | error e t =>
    rw [run] at h
    cases h
    rw [parseText] at run
    cases parsed : (parseValue F (2 * text.length + 1)).run text with
    | error e r =>
      rw [run_bind_of_error parsed] at run
      cases run
      exact never _ room parsed
    | ok v r =>
      rw [run_bind_of_ok parsed] at run
      exact ((throws_eof.bind fun _ => (throws_throwIf _ _).bind fun _ => throws_pure _) _ _ run)

end NumaFabric.JsonParser
