import FileRoutes.Text.Utf8
import Mathlib.Data.List.Forall2

/-! # UTF-8 is read back

A well-formed sequence is a first byte and bytes in the ranges that it asks for. Such a sequence is
decoded to the character whose bits it carries, whatever follows it (`decodeFrom_sequence`). The
UTF-8 form of a character is one (`decodeFrom_utf8EncodeChar`), so that decoding undoes encoding
(`decode_encode`). -/

namespace FileRoutes.Text.Utf8

/-! ## Sequences -/

/-- A value with the bits of one more byte. -/
def withBits (value : Nat) (byte : UInt8) : Nat := 0x40 * value + byte.toNat % 0x40

/-- A sequence that was begun **is finished** by bytes in the ranges that are asked for. -/
theorem decodeFrom_begun {begun : Begun} {bytes : List UInt8}
    (continues : List.Forall₂ (·.holds · = true) (begun.next :: begun.later) bytes)
    (position : Nat) (rest : List UInt8) :
    decodeFrom position (some begun) (bytes ++ rest) =
      (decodeFrom (position + bytes.length) none rest).map
        (Char.ofNat (bytes.foldl withBits begun.value) :: ·) := by
  obtain ⟨start, before, value, next, later⟩ := begun
  induction later generalizing before value next bytes position with
  | nil =>
    obtain _ | ⟨holds, _ | _⟩ := continues
    rw [List.singleton_append, decodeFrom, if_pos holds]
    rfl
  | cons second later ih =>
    obtain _ | ⟨holds, onward⟩ := continues
    rw [List.cons_append, decodeFrom, if_pos holds]
    dsimp only
    rw [ih _ _ _ _ onward, List.length_cons, List.foldl_cons, withBits, Nat.add_right_comm,
      Nat.add_assoc]

/-- A first byte that asks for none is the whole sequence. -/
theorem leadingBits_of_followers_eq_nil {first : UInt8} (asks : followers first = some []) :
    leadingBits first = first.toNat := by
  unfold followers at asks
  unfold leadingBits
  split at asks
  next small => rw [if_pos small]
  next => split_ifs at asks <;> cases asks

/-- **A well-formed sequence is decoded**: the first byte with bytes in the ranges it asks for. -/
theorem decodeFrom_sequence {first : UInt8} {ranges : List ByteRange} {bytes : List UInt8}
    (asks : followers first = some ranges)
    (continues : List.Forall₂ (·.holds · = true) ranges bytes)
    (position : Nat) (rest : List UInt8) :
    decodeFrom position none (first :: bytes ++ rest) =
      (decodeFrom (position + (first :: bytes).length) none rest).map
        (Char.ofNat (bytes.foldl withBits (leadingBits first)) :: ·) := by
  cases ranges with
  | nil =>
    cases continues
    rw [List.singleton_append, decodeFrom, asks, List.foldl_nil,
      leadingBits_of_followers_eq_nil asks]
    rfl
  | cons next later =>
    rw [List.cons_append, decodeFrom, asks]
    dsimp only
    rw [decodeFrom_begun continues, List.length_cons, Nat.add_right_comm, Nat.add_assoc]

/-! ## First bytes -/

/-- A number below 256 is that of its byte. -/
theorem toNat_ofNat {number : Nat} (small : number < 0x100) :
    (UInt8.ofNat number).toNat = number := by
  rw [UInt8.toNat_ofNat']
  exact Nat.mod_eq_of_lt small

/-- A byte lies in a range when its number does. -/
theorem holds_ofNat {range : ByteRange} {number : Nat} (lower : range.low.toNat ≤ number)
    (upper : number ≤ range.high.toNat) : range.holds (.ofNat number) = true := by
  have small : number < 0x100 := Nat.lt_of_le_of_lt upper range.high.toNat_lt
  simp only [ByteRange.holds, Bool.and_eq_true, decide_eq_true_eq, UInt8.le_iff_toNat_le,
    toNat_ofNat small]
  exact ⟨lower, upper⟩

section Followers

variable {first : Nat}

/-- What a first byte asks for, by its number. -/
theorem followers_ofNat (small : first < 0x100) :
    followers (.ofNat first) =
      if first < 0x80 then some []
      else if first < 0xC2 then none
      else if first < 0xE0 then some [continuation]
      else if first = 0xE0 then some [⟨0xA0, 0xBF⟩, continuation]
      else if first = 0xED then some [⟨0x80, 0x9F⟩, continuation]
      else if first < 0xF0 then some [continuation, continuation]
      else if first = 0xF0 then some [⟨0x90, 0xBF⟩, continuation, continuation]
      else if first < 0xF4 then some [continuation, continuation, continuation]
      else if first = 0xF4 then some [⟨0x80, 0x8F⟩, continuation, continuation]
      else none := by
  have same : ∀ byte : UInt8, UInt8.ofNat first = byte ↔ first = byte.toNat := fun byte => by
    rw [← UInt8.toNat_inj, toNat_ofNat small]
  simp only [followers, UInt8.lt_iff_toNat_lt, toNat_ofNat small, beq_iff_eq, same]
  rfl

/-- The bits that a first byte carries, by its number. -/
theorem leadingBits_ofNat (small : first < 0x100) :
    leadingBits (.ofNat first) =
      if first < 0x80 then first
      else if first < 0xE0 then first % 0x20
      else if first < 0xF0 then first % 0x10
      else first % 0x08 := by
  simp only [leadingBits, UInt8.lt_iff_toNat_lt, toNat_ofNat small]
  rfl

/-- A number behind a first byte lies in the range of those that nothing else is asked of. -/
theorem holds_continuation {number : Nat} (lower : 0x80 ≤ number) (upper : number ≤ 0xBF) :
    continuation.holds (.ofNat number) = true :=
  holds_ofNat lower upper

/-- **What the first of three bytes asks for**: the second one is neither overlong nor the begin of
a surrogate. -/
theorem exists_followers_three {second : Nat} (lower : 0xE0 ≤ first) (upper : first < 0xF0)
    (least : 0x80 ≤ second) (most : second ≤ 0xBF) (notOverlong : first = 0xE0 → 0xA0 ≤ second)
    (notSurrogate : first = 0xED → second ≤ 0x9F) :
    ∃ next, followers (.ofNat first) = some [next, continuation] ∧
      next.holds (.ofNat second) = true := by
  rw [followers_ofNat (by omega), if_neg (by omega), if_neg (by omega), if_neg (by omega)]
  split
  next same => exact ⟨_, rfl, holds_ofNat (notOverlong same) most⟩
  split
  next same => exact ⟨_, rfl, holds_ofNat least (notSurrogate same)⟩
  next => exact ⟨_, rfl, holds_continuation least most⟩

/-- **What the first of four bytes asks for**: the second one is not overlong and does not lead
beyond the last character. -/
theorem exists_followers_four {second : Nat} (lower : 0xF0 ≤ first) (upper : first ≤ 0xF4)
    (least : 0x80 ≤ second) (most : second ≤ 0xBF) (notOverlong : first = 0xF0 → 0x90 ≤ second)
    (notBeyond : first = 0xF4 → second ≤ 0x8F) :
    ∃ next, followers (.ofNat first) = some [next, continuation, continuation] ∧
      next.holds (.ofNat second) = true := by
  rw [followers_ofNat (by omega), if_neg (by omega), if_neg (by omega), if_neg (by omega),
    if_neg (by omega), if_neg (by omega), if_neg (by omega)]
  split
  next same => exact ⟨_, rfl, holds_ofNat (notOverlong same) most⟩
  split
  next => exact ⟨_, rfl, holds_continuation least most⟩
  rw [if_pos (by omega)]
  exact ⟨_, rfl, holds_ofNat least (notBeyond (by omega))⟩

end Followers

/-! ## Characters -/

/-- The UTF-8 form of a character by its number. -/
theorem utf8EncodeChar_eq (c : Char) :
    String.utf8EncodeChar c =
      if c.toNat ≤ 0x7F then [.ofNat c.toNat]
      else if c.toNat ≤ 0x7FF then
        [.ofNat (c.toNat / 0x40 % 0x20 + 0xC0), .ofNat (c.toNat % 0x40 + 0x80)]
      else if c.toNat ≤ 0xFFFF then
        [.ofNat (c.toNat / 0x1000 % 0x10 + 0xE0), .ofNat (c.toNat / 0x40 % 0x40 + 0x80),
          .ofNat (c.toNat % 0x40 + 0x80)]
      else
        [.ofNat (c.toNat / 0x40000 % 0x08 + 0xF0), .ofNat (c.toNat / 0x1000 % 0x40 + 0x80),
          .ofNat (c.toNat / 0x40 % 0x40 + 0x80), .ofNat (c.toNat % 0x40 + 0x80)] :=
  rfl

/-- **The UTF-8 form of a character is a well-formed sequence** that carries its bits. -/
theorem exists_utf8EncodeChar_eq (c : Char) :
    ∃ first ranges bytes, String.utf8EncodeChar c = first :: bytes ∧
      followers first = some ranges ∧ List.Forall₂ (·.holds · = true) ranges bytes ∧
      bytes.foldl withBits (leadingBits first) = c.toNat := by
  have valid : c.toNat < 0xD800 ∨ 0xDFFF < c.toNat ∧ c.toNat < 0x110000 := c.valid
  rw [utf8EncodeChar_eq]
  -- The cases are the lengths of the sequence, from one byte to four.
  split
  next =>
    refine ⟨_, [], [], rfl, ?_, .nil, ?_⟩
    · rw [followers_ofNat (by omega), if_pos (by omega)]
    · rw [List.foldl_nil, leadingBits_ofNat (by omega), if_pos (by omega)]
  split
  next =>
    refine ⟨_, [continuation], _, rfl, ?_,
      .cons (holds_continuation (by omega) (by omega)) .nil, ?_⟩
    · rw [followers_ofNat (by omega), if_neg (by omega), if_neg (by omega), if_pos (by omega)]
    · rw [leadingBits_ofNat (by omega), if_neg (by omega), if_pos (by omega)]
      simp only [List.foldl_cons, List.foldl_nil, withBits]
      rw [toNat_ofNat (by omega)]
      omega
  split
  next =>
    -- Two bytes were too few, so that it is not overlong; a character is no surrogate.
    obtain ⟨next, asks, holds⟩ := exists_followers_three
      (by omega : 0xE0 ≤ c.toNat / 0x1000 % 0x10 + 0xE0) (by omega)
      (by omega : 0x80 ≤ c.toNat / 0x40 % 0x40 + 0x80) (by omega) (by omega) (by omega)
    refine ⟨_, _, _, rfl, asks, .cons holds (.cons (holds_continuation (by omega) (by omega)) .nil),
      ?_⟩
    rw [leadingBits_ofNat (by omega), if_neg (by omega), if_neg (by omega), if_pos (by omega)]
    simp only [List.foldl_cons, List.foldl_nil, withBits]
    rw [toNat_ofNat (by omega), toNat_ofNat (by omega)]
    omega
  next =>
    -- Three bytes were too few, and no character lies beyond the last one.
    obtain ⟨next, asks, holds⟩ := exists_followers_four
      (by omega : 0xF0 ≤ c.toNat / 0x40000 % 0x08 + 0xF0) (by omega)
      (by omega : 0x80 ≤ c.toNat / 0x1000 % 0x40 + 0x80) (by omega) (by omega) (by omega)
    refine ⟨_, _, _, rfl, asks, .cons holds (.cons (holds_continuation (by omega) (by omega))
      (.cons (holds_continuation (by omega) (by omega)) .nil)), ?_⟩
    rw [leadingBits_ofNat (by omega), if_neg (by omega), if_neg (by omega), if_neg (by omega)]
    simp only [List.foldl_cons, List.foldl_nil, withBits]
    rw [toNat_ofNat (by omega), toNat_ofNat (by omega), toNat_ofNat (by omega)]
    omega

/-- **A character is decoded** from its UTF-8 form, whatever follows it. -/
theorem decodeFrom_utf8EncodeChar (c : Char) (position : Nat) (rest : List UInt8) :
    decodeFrom position none (String.utf8EncodeChar c ++ rest) =
      (decodeFrom (position + (String.utf8EncodeChar c).length) none rest).map (c :: ·) := by
  obtain ⟨first, ranges, bytes, form, asks, continues, bits⟩ := exists_utf8EncodeChar_eq c
  rw [form, decodeFrom_sequence asks continues, bits, Char.ofNat_toNat]

/-- **A text is decoded** from its UTF-8 form, whatever follows it. -/
theorem decodeFrom_encode_append (text : List Char) (position : Nat) (rest : List UInt8) :
    decodeFrom position none (encode text ++ rest) =
      (decodeFrom (position + (encode text).length) none rest).map (text ++ ·) := by
  induction text generalizing position with
  | nil => exact (congrFun Except.map_id (decodeFrom position none rest)).symm
  | cons c text ih =>
    rw [encode, List.flatMap_cons, List.append_assoc, decodeFrom_utf8EncodeChar, ← encode, ih,
      List.length_append, ← Nat.add_assoc]
    cases decodeFrom _ none rest <;> rfl

/-- **Decoding undoes encoding**: every text is read back from its UTF-8 form. -/
theorem decode_encode (text : List Char) : decode (encode text) = .ok text := by
  rw [decode, ← List.append_nil (encode text), decodeFrom_encode_append, decodeFrom, Except.map,
    List.append_nil]

end FileRoutes.Text.Utf8
