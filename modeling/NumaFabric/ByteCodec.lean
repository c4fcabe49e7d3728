import NumaFabric.FaultState

/-! Little-endian words as byte lists, readers that consume a prefix of their input,
and the rule that a reader composed like a writer returns what was written. -/
namespace NumaFabric.ByteCodec
open FaultState

variable {w : ℕ}

/-- The `n` low bytes, least significant first. -/
def toBytes : ℕ → BitVec w → List (BitVec 8)
  | 0, _ => []
  | n + 1, v => v.setWidth 8 :: toBytes n (v >>> 8)

def ofBytes : List (BitVec 8) → BitVec w
  | [] => 0
  | b :: l => b.setWidth w ||| (ofBytes l <<< 8)

@[simp] theorem length_toBytes (n : ℕ) (v : BitVec w) : (toBytes n v).length = n := by
  induction n generalizing v with
  | zero => rfl
  | succ n ih => rw [toBytes, List.length_cons, ih]

theorem getLsbD_ofBytes_toBytes (n : ℕ) (v : BitVec w) (i : ℕ) :
    (ofBytes (toBytes n v) : BitVec w).getLsbD i = (decide (i < 8 * n) && v.getLsbD i) := by
  induction n generalizing v i with
  | zero => simp [toBytes, ofBytes]
  | succ n ih =>
    simp only [toBytes, ofBytes, BitVec.getLsbD_or, BitVec.getLsbD_setWidth,
      BitVec.getLsbD_shiftLeft, ih, BitVec.getLsbD_ushiftRight]
    by_cases hw : i < w
    · by_cases h8 : i < 8
      · simp [hw, h8, show i < 8 * (n + 1) by omega]
      · have hi : 8 + (i - 8) = i := by omega
        have hn : (i - 8 < 8 * n) = (i < 8 * (n + 1)) := by
          rw [eq_iff_iff]
          omega
        simp [hw, h8, hi, hn]
    · rw [BitVec.getLsbD_of_ge v i (by omega)]
      simp [hw]

/-- Reassembling all the bytes of a word gives the word back. -/
theorem ofBytes_toBytes {n : ℕ} (v : BitVec w) (h : w ≤ 8 * n) : ofBytes (toBytes n v) = v := by
  apply BitVec.eq_of_getLsbD_eq
  intro i hi
  rw [getLsbD_ofBytes_toBytes, decide_eq_true (by omega), Bool.true_and]

theorem getLsbD_ofBytes_of_ge (l : List (BitVec 8)) {i : ℕ} (h : 8 * l.length ≤ i) :
    (ofBytes l : BitVec w).getLsbD i = false := by
  induction l generalizing i with
  | nil => simp [ofBytes]
  | cons b l ih =>
    rw [List.length_cons] at h
    have hb : b.getLsbD i = false := BitVec.getLsbD_of_ge b i (by omega)
    simp only [ofBytes, BitVec.getLsbD_or, BitVec.getLsbD_setWidth, BitVec.getLsbD_shiftLeft, hb]
    rw [ih (by omega)]
    simp

/-- Splitting a reassembled word gives the same bytes back. -/
theorem toBytes_ofBytes (l : List (BitVec 8)) (h : 8 * l.length ≤ w) :
    toBytes l.length (ofBytes l : BitVec w) = l := by
  induction l with
  | nil => rfl
  | cons b l ih =>
    rw [List.length_cons] at h
    have low : (ofBytes (b :: l) : BitVec w).setWidth 8 = b := by
      apply BitVec.eq_of_getLsbD_eq
      intro i hi
      simp [ofBytes, hi, show i < w by omega]
    have high : (ofBytes (b :: l) : BitVec w) >>> 8 = ofBytes l := by
      apply BitVec.eq_of_getLsbD_eq
      intro i hi
      simp only [ofBytes, BitVec.getLsbD_ushiftRight, BitVec.getLsbD_or, BitVec.getLsbD_setWidth,
        BitVec.getLsbD_shiftLeft]
      by_cases hw : 8 + i < w
      · simp [hw]
      · have hl := getLsbD_ofBytes_of_ge (w := w) l (i := i) (by omega)
        simp [hw, hl]
    rw [List.length_cons, toBytes, low, high, ih (by omega)]

/-- The last byte is the most significant one. -/
theorem ofBytes_concat (l : List (BitVec 8)) (b : BitVec 8) :
    (ofBytes (l ++ [b]) : BitVec w) = ofBytes l ||| (b.setWidth w <<< (8 * l.length)) := by
  induction l with
  | nil => simp [ofBytes]
  | cons a l ih =>
    rw [List.cons_append, ofBytes, ih, ofBytes, BitVec.shiftLeft_or_distrib, ← BitVec.shiftLeft_add,
      BitVec.or_assoc, List.length_cons, Nat.mul_succ]

/-- The word stored at an offset. -/
def field (w n offset : ℕ) (data : List (BitVec 8)) : BitVec w :=
  ofBytes ((data.drop offset).take n)

/-- Later bytes do not change the fields already there. -/
theorem field_append {n k : ℕ} {data : List (BitVec 8)} (more : List (BitVec 8))
    (h : k + n ≤ data.length) : field w n k (data ++ more) = field w n k data := by
  rw [field, List.drop_append_of_le_length (by omega), List.take_append_of_le_length, field]
  rw [List.length_drop]
  omega

theorem toBytes_field {n k : ℕ} {data : List (BitVec 8)} (hw : 8 * n = w)
    (hk : k + n ≤ data.length) : toBytes n (field w n k data) = (data.drop k).take n := by
  have slice : ((data.drop k).take n).length = n := by
    rw [List.length_take, List.length_drop]
    omega
  have h := toBytes_ofBytes (w := w) ((data.drop k).take n) (by rw [slice, hw])
  rwa [slice] at h

/-- A field whose bytes are those of a word is that word. -/
theorem field_eq {n k : ℕ} {data : List (BitVec 8)} {v : BitVec w} (full : w ≤ 8 * n)
    (slice : (data.drop k).take n = toBytes n v) : field w n k data = v := by
  rw [field, slice, ofBytes_toBytes v full]

variable {ε α β : Type}

/-- A reader consumes its input from the front; the state is what is left unread. -/
abbrev Reader (ε α : Type) := Fault ε (List (BitVec 8)) α

/-- Take the next `n` bytes, or raise when fewer are left. -/
def take (n : ℕ) (e : ε) : Reader ε (List (BitVec 8)) := fun l =>
  if l.length < n then .error e l else .ok (l.take n) (l.drop n)

def word (w n : ℕ) (e : ε) : Reader ε (BitVec w) := do
  return ofBytes (← take n e)

/-- The reader returns the value from these bytes and leaves the rest untouched. -/
def Reads (r : Reader ε α) (bytes : List (BitVec 8)) (a : α) : Prop :=
  ∀ rest, r.run (bytes ++ rest) = .ok a rest

theorem reads_pure (a : α) : Reads (pure a : Reader ε α) [] a := fun _ => rfl

theorem Reads.bind {r : Reader ε α} {f : α → Reader ε β} {xs ys : List (BitVec 8)} {a : α} {b : β}
    (hr : Reads r xs a) (hf : Reads (f a) ys b) : Reads (r >>= f) (xs ++ ys) b := by
  intro rest
  rw [List.append_assoc, run_bind_of_ok (hr (ys ++ rest)), hf rest]

/-- A last step that only computes. -/
theorem Reads.pure_bind {r : Reader ε α} {f : α → β} {xs : List (BitVec 8)} {a : α}
    (hr : Reads r xs a) : Reads (r >>= fun x => pure (f x)) xs (f a) := by
  have h := hr.bind (f := fun x => pure (f x)) (reads_pure (f a))
  rwa [List.append_nil] at h

theorem reads_take (n : ℕ) (e : ε) {bytes : List (BitVec 8)} (h : bytes.length = n) :
    Reads (take n e) bytes bytes := by
  intro rest
  change (if (bytes ++ rest).length < n then _ else _) = _
  rw [if_neg (by rw [List.length_append]; omega), List.take_left' h, List.drop_left' h]

theorem reads_word {n : ℕ} (e : ε) (v : BitVec w) (h : w ≤ 8 * n) :
    Reads (word w n e) (toBytes n v) v := by
  have hr := (reads_take n e (length_toBytes n v)).pure_bind (f := (ofBytes : _ → BitVec w))
  rwa [ofBytes_toBytes v h] at hr

/-- Bytes behind those it reads do not matter to a reader, and what it raises is known. -/
structure Strict (P : ε → Prop) (r : Reader ε α) : Prop where
  extend : ∀ l a rest, r.run l = .ok a rest → ∀ more, r.run (l ++ more) = .ok a (rest ++ more)
  raise : ∀ l e rest, r.run l = .error e rest → P e

section Strict
variable {P : ε → Prop}

theorem strict_pure (a : α) : Strict P (pure a : Reader ε α) where
  extend l b rest h more := by
    obtain ⟨rfl, rfl⟩ := run_pure_eq_ok.mp h
    rfl
  raise l e rest h := by cases h

theorem strict_throw {e : ε} (he : P e) : Strict P (throw e : Reader ε α) where
  extend l b rest h := by cases h
  raise l e' rest h := by
    cases h
    exact he

theorem strict_throwIf (c : Bool) {e : ε} (he : P e) : Strict P (throwIf c e : Reader ε Unit) := by
  cases c
  · exact strict_pure ()
  · exact strict_throw he

theorem Strict.bind {r : Reader ε α} {f : α → Reader ε β} (hr : Strict P r)
    (hf : ∀ a, Strict P (f a)) : Strict P (r >>= f) where
  extend l b rest h more := by
    obtain ⟨a, u, ha, hb⟩ := run_bind_eq_ok.mp h
    rw [run_bind_of_ok (hr.extend _ _ _ ha more)]
    exact (hf a).extend _ _ _ hb more
  raise l e rest h := by
    cases ha : r.run l with
    | ok a u =>
      rw [run_bind_of_ok ha] at h
      exact (hf a).raise _ _ _ h
    | error e' u =>
      rw [run_bind_of_error ha] at h
      cases h
      exact hr.raise _ _ _ ha

theorem take_run (n : ℕ) (e : ε) (l : List (BitVec 8)) :
    (take n e).run l = if l.length < n then .error e l else .ok (l.take n) (l.drop n) := rfl

theorem take_eq_ok {n : ℕ} {e : ε} {l a rest : List (BitVec 8)}
    (h : (take n e).run l = .ok a rest) : a.length = n ∧ l = a ++ rest := by
  rw [take_run] at h
  split_ifs at h with short
  cases h
  exact ⟨by rw [List.length_take]; omega, (List.take_append_drop n l).symm⟩

theorem strict_take (n : ℕ) {e : ε} (he : P e) : Strict P (take n e) where
  extend l a rest h more := by
    obtain ⟨length, rfl⟩ := take_eq_ok h
    rw [List.append_assoc]
    exact reads_take n e length (rest ++ more)
  raise l e' rest h := by
    rw [take_run] at h
    split_ifs at h
    cases h
    exact he

theorem strict_word (n : ℕ) {e : ε} (he : P e) : Strict P (word w n e) :=
  (strict_take n he).bind fun _ => strict_pure _

end Strict

/-- A word has one encoding. -/
theorem word_eq_ok {n : ℕ} {e : ε} (full : 8 * n = w) {l rest : List (BitVec 8)} {v : BitVec w}
    (h : (word w n e).run l = .ok v rest) : l = toBytes n v ++ rest := by
  obtain ⟨a, u, taken, made⟩ := run_bind_eq_ok.mp h
  obtain ⟨rfl, rfl⟩ := run_pure_eq_ok.mp made
  obtain ⟨length, rfl⟩ := take_eq_ok taken
  rw [← length, toBytes_ofBytes a (by omega)]

/-- Everything the reader accepts for a value is one of its encodings. -/
def Decodes (r : Reader ε α) (encodes : α → List (BitVec 8) → Prop) : Prop :=
  ∀ l a rest, r.run l = .ok a rest → ∃ bytes, encodes a bytes ∧ l = bytes ++ rest

/-- Run a reader a fixed number of times, in order. -/
def times (n : ℕ) (r : Reader ε α) : Reader ε (List α) :=
  match n with
  | 0 => pure []
  | n + 1 => do
    let a ← r
    let as ← times n r
    return a :: as

/-- Each item is read to a value of its own. -/
theorem reads_times_map {γ : Type} {r : Reader ε β} {write : γ → List (BitVec 8)} {f : γ → β}
    (cs : List γ) (h : ∀ c ∈ cs, Reads r (write c) (f c)) :
    Reads (times cs.length r) (cs.flatMap write) (cs.map f) := by
  induction cs with
  | nil => exact reads_pure []
  | cons c cs ih =>
    have hc := h c List.mem_cons_self
    have hcs := ih fun d hd => h d (List.mem_cons_of_mem c hd)
    exact hc.bind hcs.pure_bind

theorem reads_times {r : Reader ε α} {write : α → List (BitVec 8)} (as : List α)
    (h : ∀ a ∈ as, Reads r (write a) a) : Reads (times as.length r) (as.flatMap write) as := by
  have read := reads_times_map (f := id) as h
  rwa [List.map_id] at read

theorem Strict.times {P : ε → Prop} {r : Reader ε α} (h : Strict P r) (n : ℕ) :
    Strict P (times n r) := by
  induction n with
  | zero => exact strict_pure []
  | succ n ih => exact h.bind fun _ => ih.bind fun _ => strict_pure _

theorem Decodes.times {r : Reader ε α} {encodes : α → List (BitVec 8) → Prop}
    (h : Decodes r encodes) (n : ℕ) :
    Decodes (times n r) fun as bytes =>
      as.length = n ∧ ∃ parts, List.Forall₂ encodes as parts ∧ bytes = parts.flatten := by
  induction n with
  | zero =>
    intro l as rest read
    obtain ⟨rfl, rfl⟩ := run_pure_eq_ok.mp read
    exact ⟨[], ⟨rfl, [], .nil, rfl⟩, rfl⟩
  | succ n ih =>
    intro l as rest read
    obtain ⟨a, u, first, read⟩ := run_bind_eq_ok.mp read
    obtain ⟨as', u', others, made⟩ := run_bind_eq_ok.mp read
    obtain ⟨rfl, rfl⟩ := run_pure_eq_ok.mp made
    obtain ⟨xs, hxs, rfl⟩ := h _ _ _ first
    obtain ⟨_, ⟨length, parts, each, rfl⟩, rfl⟩ := ih _ _ _ others
    exact ⟨_, ⟨by rw [List.length_cons, length], xs :: parts, .cons hxs each, rfl⟩, by simp⟩

end NumaFabric.ByteCodec
