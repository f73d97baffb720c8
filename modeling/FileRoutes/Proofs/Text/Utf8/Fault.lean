import FileRoutes.Proofs.Text.Utf8
import Mathlib.Order.Bounds.Defs

/-! # What is no UTF-8 is refused

Bytes are UTF-8 when they are the UTF-8 form of a text. Decoding accepts these bytes only
(`decode_eq_ok_iff`): a first byte with bytes in the ranges it asks for is the form of a character
(`exists_utf8EncodeChar_of_sequence`), so that no overlong form, no surrogate and no value above
U+10FFFF slips through. Other bytes begin with the longest text that they hold, and the refusal
stands at its end (`exists_encode_append`, `isGreatest_position`). -/

namespace FileRoutes.Text.Utf8

/-! ## Characters from their bytes -/

/-- There is a character for every number that is no surrogate and not too large. -/
theorem exists_char_toNat_eq {number : Nat}
    (valid : number < 0xD800 ∨ 0xDFFF < number ∧ number < 0x110000) :
    ∃ c : Char, c.toNat = number :=
  ⟨.ofNatAux number valid, rfl⟩

/-- The number of a byte in a range. -/
theorem ByteRange.bounds_of_holds {range : ByteRange} {byte : UInt8}
    (holds : range.holds byte = true) :
    range.low.toNat ≤ byte.toNat ∧ byte.toNat ≤ range.high.toNat := by
  simpa only [ByteRange.holds, Bool.and_eq_true, decide_eq_true_eq, UInt8.le_iff_toNat_le]
    using holds

/-- The number of a byte that continues a sequence. -/
theorem bounds_of_holds_continuation {byte : UInt8} (holds : continuation.holds byte = true) :
    0x80 ≤ byte.toNat ∧ byte.toNat ≤ 0xBF :=
  ByteRange.bounds_of_holds holds

section Sequence

variable {first : UInt8} {next : ByteRange} {bytes : List UInt8}

/-- A byte that asks for none is a character. -/
theorem exists_utf8EncodeChar_one (upper : first.toNat < 0x80) :
    ∃ c, String.utf8EncodeChar c = [first] := by
  obtain ⟨c, bits⟩ := exists_char_toNat_eq (by omega : first.toNat < 0xD800 ∨ _)
  refine ⟨c, ?_⟩
  rw [utf8EncodeChar_eq, if_pos (by omega), bits, UInt8.ofNat_toNat]

/-- **Two bytes** that are not overlong are a character. -/
theorem exists_utf8EncodeChar_two (lower : 0xC2 ≤ first.toNat) (upper : first.toNat < 0xE0)
    (continues : List.Forall₂ (·.holds · = true) [continuation] bytes) :
    ∃ c, String.utf8EncodeChar c = first :: bytes := by
  obtain _ | @⟨_, second, _, _, holds, _ | _⟩ := continues
  have := bounds_of_holds_continuation holds
  obtain ⟨c, bits⟩ := exists_char_toNat_eq
    (by omega : 0x40 * (first.toNat % 0x20) + second.toNat % 0x40 < 0xD800 ∨ _)
  refine ⟨c, ?_⟩
  rw [utf8EncodeChar_eq, if_neg (by omega), if_pos (by omega),
    show c.toNat / 0x40 % 0x20 + 0xC0 = first.toNat by omega,
    show c.toNat % 0x40 + 0x80 = second.toNat by omega, UInt8.ofNat_toNat, UInt8.ofNat_toNat]

/-- **Three bytes** that are neither overlong nor a surrogate are a character. -/
theorem exists_utf8EncodeChar_three (lower : 0xE0 ≤ first.toNat) (upper : first.toNat < 0xF0)
    (least : 0x80 ≤ next.low.toNat) (most : next.high.toNat ≤ 0xBF)
    (notOverlong : first.toNat = 0xE0 → 0xA0 ≤ next.low.toNat)
    (notSurrogate : first.toNat = 0xED → next.high.toNat ≤ 0x9F)
    (continues : List.Forall₂ (·.holds · = true) [next, continuation] bytes) :
    ∃ c, String.utf8EncodeChar c = first :: bytes := by
  obtain _ | @⟨_, second, _, _, holds, _ | @⟨_, third, _, _, holds₃, _ | _⟩⟩ := continues
  have := ByteRange.bounds_of_holds holds
  have := bounds_of_holds_continuation holds₃
  obtain ⟨c, bits⟩ := exists_char_toNat_eq
    (by omega : 0x40 * (0x40 * (first.toNat % 0x10) + second.toNat % 0x40) +
      third.toNat % 0x40 < 0xD800 ∨ _)
  refine ⟨c, ?_⟩
  rw [utf8EncodeChar_eq, if_neg (by omega), if_neg (by omega), if_pos (by omega),
    show c.toNat / 0x1000 % 0x10 + 0xE0 = first.toNat by omega,
    show c.toNat / 0x40 % 0x40 + 0x80 = second.toNat by omega,
    show c.toNat % 0x40 + 0x80 = third.toNat by omega,
    UInt8.ofNat_toNat, UInt8.ofNat_toNat, UInt8.ofNat_toNat]

/-- **Four bytes** that are not overlong and do not lead beyond the last character are a
character. -/
theorem exists_utf8EncodeChar_four (lower : 0xF0 ≤ first.toNat) (upper : first.toNat ≤ 0xF4)
    (least : 0x80 ≤ next.low.toNat) (most : next.high.toNat ≤ 0xBF)
    (notOverlong : first.toNat = 0xF0 → 0x90 ≤ next.low.toNat)
    (notBeyond : first.toNat = 0xF4 → next.high.toNat ≤ 0x8F)
    (continues : List.Forall₂ (·.holds · = true) [next, continuation, continuation] bytes) :
    ∃ c, String.utf8EncodeChar c = first :: bytes := by
  obtain _ | @⟨_, second, _, _, holds, _ | @⟨_, third, _, _, holds₃,
    _ | @⟨_, fourth, _, _, holds₄, _ | _⟩⟩⟩ := continues
  have := ByteRange.bounds_of_holds holds
  have := bounds_of_holds_continuation holds₃
  have := bounds_of_holds_continuation holds₄
  obtain ⟨c, bits⟩ := exists_char_toNat_eq
    (by omega : 0x40 * (0x40 * (0x40 * (first.toNat % 0x08) + second.toNat % 0x40) +
      third.toNat % 0x40) + fourth.toNat % 0x40 < 0xD800 ∨ _)
  refine ⟨c, ?_⟩
  rw [utf8EncodeChar_eq, if_neg (by omega), if_neg (by omega), if_neg (by omega),
    show c.toNat / 0x40000 % 0x08 + 0xF0 = first.toNat by omega,
    show c.toNat / 0x1000 % 0x40 + 0x80 = second.toNat by omega,
    show c.toNat / 0x40 % 0x40 + 0x80 = third.toNat by omega,
    show c.toNat % 0x40 + 0x80 = fourth.toNat by omega,
    UInt8.ofNat_toNat, UInt8.ofNat_toNat, UInt8.ofNat_toNat, UInt8.ofNat_toNat]

/-- **A first byte with bytes in the ranges it asks for is a character.** -/
theorem exists_utf8EncodeChar_of_sequence {ranges : List ByteRange}
    (asks : followers first = some ranges)
    (continues : List.Forall₂ (·.holds · = true) ranges bytes) :
    ∃ c, String.utf8EncodeChar c = first :: bytes := by
  rw [← UInt8.ofNat_toNat (x := first), followers_ofNat first.toNat_lt] at asks
  -- The cases are the lines of `followers`, of which two ask for nothing that could follow.
  split_ifs at asks with ascii invalid two overlong₃ surrogate three overlong₄ four beyond <;>
    obtain rfl := Option.some.inj asks
  · cases continues
    exact exists_utf8EncodeChar_one ascii
  · exact exists_utf8EncodeChar_two (by omega) two continues
  · exact exists_utf8EncodeChar_three (by omega) (by omega) (by decide) (by decide)
      (fun _ => by decide) (fun same => by omega) continues
  · exact exists_utf8EncodeChar_three (by omega) (by omega) (by decide) (by decide)
      (fun same => by omega) (fun _ => by decide) continues
  · exact exists_utf8EncodeChar_three (by omega) three (by decide) (by decide)
      (fun same => absurd same overlong₃) (fun same => absurd same surrogate) continues
  · exact exists_utf8EncodeChar_four (by omega) (by omega) (by decide) (by decide)
      (fun _ => by decide) (fun same => by omega) continues
  · exact exists_utf8EncodeChar_four (by omega) (by omega) (by decide) (by decide)
      (fun same => absurd same overlong₄) (fun same => by omega) continues
  · exact exists_utf8EncodeChar_four (by omega) (by omega) (by decide) (by decide)
      (fun same => absurd same overlong₄) (fun _ => by decide) continues

end Sequence

/-! ## Refusals -/

/-- A refusal **blames the first** of the bytes behind a given number of others: it stands in front
of them and names one or more of them. -/
structure Fault.Blames (fault : Fault) (position : Nat) (bytes : List UInt8) : Prop where
  /-- It stands in front of the bytes. -/
  position : fault.position = position
  /-- It names a byte at least. -/
  ne_nil : fault.bytes ≠ []
  /-- It names the first ones. -/
  isPrefix : fault.bytes <+: bytes

/-- A sequence that was begun **is finished or given up**, and is blamed then from its first byte
on. -/
theorem decodeFrom_begun_cases (begun : Begun) (ne_nil : begun.bytes ≠ []) (position : Nat)
    (bytes : List UInt8) :
    (∃ sequence rest, bytes = sequence ++ rest ∧
      List.Forall₂ (·.holds · = true) (begun.next :: begun.later) sequence) ∨
    ∃ fault, decodeFrom position (some begun) bytes = .error fault ∧
      fault.Blames begun.position (begun.bytes ++ bytes) := by
  obtain ⟨start, before, value, next, later⟩ := begun
  induction later generalizing before value next bytes position with
  | nil =>
    cases bytes with
    | nil => exact .inr ⟨_, by rw [decodeFrom], rfl, ne_nil, List.prefix_append ..⟩
    | cons byte bytes =>
      by_cases holds : next.holds byte = true
      · exact .inl ⟨[byte], bytes, rfl, .cons holds .nil⟩
      · exact .inr ⟨_, by rw [decodeFrom, if_neg holds], rfl, ne_nil, List.prefix_append ..⟩
  | cons second later ih =>
    cases bytes with
    | nil => exact .inr ⟨_, by rw [decodeFrom], rfl, ne_nil, List.prefix_append ..⟩
    | cons byte bytes =>
      by_cases holds : next.holds byte = true
      · rcases ih (position + 1) bytes (before ++ [byte]) (withBits value byte) second
            (List.append_ne_nil_of_left_ne_nil ne_nil _) with
          ⟨sequence, rest, rfl, continues⟩ | ⟨fault, refused, blames⟩
        · exact .inl ⟨byte :: sequence, rest, rfl, .cons holds continues⟩
        · refine .inr ⟨fault, ?_, by simpa using blames⟩
          rw [decodeFrom, if_pos holds]
          exact refused
      · exact .inr ⟨_, by rw [decodeFrom, if_neg holds], rfl, ne_nil, List.prefix_append ..⟩

/-- **Bytes begin with a character, or are refused** at the first of them. -/
theorem decodeFrom_cons_cases (position : Nat) (first : UInt8) (bytes : List UInt8) :
    (∃ c rest, first :: bytes = String.utf8EncodeChar c ++ rest) ∨
    ∃ fault, decodeFrom position none (first :: bytes) = .error fault ∧
      fault.Blames position (first :: bytes) := by
  cases asks : followers first with
  | none =>
    exact .inr ⟨_, by rw [decodeFrom, asks], rfl, List.cons_ne_nil _ _, ⟨bytes, rfl⟩⟩
  | some ranges =>
    cases ranges with
    | nil =>
      obtain ⟨c, form⟩ := exists_utf8EncodeChar_of_sequence asks .nil
      exact .inl ⟨c, bytes, by rw [form, List.singleton_append]⟩
    | cons next later =>
      rcases decodeFrom_begun_cases ⟨position, [first], leadingBits first, next, later⟩
          (List.cons_ne_nil _ _) (position + 1) bytes with
        ⟨sequence, rest, rfl, continues⟩ | ⟨fault, refused, blames⟩
      · obtain ⟨c, form⟩ := exists_utf8EncodeChar_of_sequence asks continues
        exact .inl ⟨c, rest, by rw [form, List.cons_append]⟩
      · exact .inr ⟨fault, by rw [decodeFrom, asks]; exact refused, blames⟩

/-- **Bytes are a text and what is refused behind it**, which may be nothing. -/
theorem exists_encode_append (position : Nat) (bytes : List UInt8) :
    ∃ text rest, bytes = encode text ++ rest ∧
      (rest = [] ∨ ∃ fault, decodeFrom (position + (encode text).length) none rest = .error fault ∧
        fault.Blames (position + (encode text).length) rest) := by
  cases bytes with
  | nil => exact ⟨[], [], rfl, .inl rfl⟩
  | cons first bytes =>
    rcases decodeFrom_cons_cases position first bytes with ⟨c, rest, equal⟩ | refused
    · have shorter : rest.length < (first :: bytes).length := by
        rw [equal, List.length_append, String.length_utf8EncodeChar]
        exact Nat.lt_add_of_pos_left c.utf8Size_pos
      obtain ⟨text, rest', rfl, stands⟩ :=
        exists_encode_append (position + (String.utf8EncodeChar c).length) rest
      refine ⟨c :: text, rest', ?_, ?_⟩
      · rw [equal, encode, encode, List.flatMap_cons, List.append_assoc]
      · rwa [encode, List.flatMap_cons, ← encode, List.length_append, ← Nat.add_assoc]
    · exact ⟨[], first :: bytes, rfl, .inr refused⟩
  termination_by bytes.length
  decreasing_by exact shorter

/-! ## Decoding as a whole -/

/-- Bytes are **UTF-8** when they are the UTF-8 form of a text. -/
def IsUtf8 (bytes : List UInt8) : Prop :=
  ∃ text, encode text = bytes

/-- A text is decoded, and so is nothing else. -/
theorem decode_cases (bytes : List UInt8) :
    (∃ text, encode text = bytes ∧ decode bytes = .ok text) ∨
    ∃ text rest fault, bytes = encode text ++ rest ∧ decode bytes = .error fault ∧
      fault.Blames (encode text).length rest := by
  obtain ⟨text, rest, rfl, rfl | ⟨fault, refused, blames⟩⟩ := exists_encode_append 0 bytes
  · exact .inl ⟨text, by rw [List.append_nil], by rw [List.append_nil, decode_encode]⟩
  · refine .inr ⟨text, rest, fault, rfl, ?_, by rwa [Nat.zero_add] at blames⟩
    rw [decode, decodeFrom_encode_append, refused]
    rfl

/-- **Decoding accepts UTF-8 only**, and gives the one text that the bytes are the form of. -/
theorem decode_eq_ok_iff {bytes : List UInt8} {text : List Char} :
    decode bytes = .ok text ↔ encode text = bytes := by
  refine ⟨fun decoded => ?_, fun form => form ▸ decode_encode text⟩
  rcases decode_cases bytes with ⟨text', form, same⟩ | ⟨-, -, fault, -, refused, -⟩
  · rw [same] at decoded
    exact Except.ok.inj decoded ▸ form
  · rw [refused] at decoded
    cases decoded

/-- No refusal stands in front of the bytes that are read. -/
theorem le_position_of_decodeFrom {position : Nat} {bytes : List UInt8} {fault : Fault}
    (refused : decodeFrom position none bytes = .error fault) : position ≤ fault.position := by
  obtain ⟨text, rest, rfl, rfl | ⟨fault', refused', blames⟩⟩ := exists_encode_append position bytes
  · rw [decodeFrom_encode_append, decodeFrom] at refused
    cases refused
  · rw [decodeFrom_encode_append, refused'] at refused
    obtain rfl : fault' = fault := Except.error.inj refused
    exact blames.position ▸ Nat.le_add_right position _

/-- **Bytes that are no UTF-8 are refused** where the longest text in front of them ends. -/
theorem exists_decode_eq_error {bytes : List UInt8} (invalid : ¬ IsUtf8 bytes) :
    ∃ fault, decode bytes = .error fault ∧
      IsGreatest {count | count ≤ bytes.length ∧ IsUtf8 (bytes.take count)} fault.position ∧
      fault.Blames fault.position (bytes.drop fault.position) := by
  rcases decode_cases bytes with ⟨text, form, -⟩ | ⟨text, rest, fault, rfl, refused, blames⟩
  · exact absurd ⟨text, form⟩ invalid
  refine ⟨fault, refused, ⟨⟨?_, text, ?_⟩, ?_⟩, ?_⟩
  · rw [blames.position, List.length_append]
    exact Nat.le_add_right ..
  · rw [blames.position, List.take_left]
  · -- A longer text would be decoded first, so that nothing before its end were refused.
    rintro count ⟨within, longer, form⟩
    rw [decode, ← List.take_append_drop count (encode text ++ rest), ← form,
      decodeFrom_encode_append, Nat.zero_add] at refused
    cases left : decodeFrom (encode longer).length none ((encode text ++ rest).drop count) with
    | ok read =>
      rw [left] at refused
      cases refused
    | error fault' =>
      rw [left] at refused
      obtain rfl : fault' = fault := Except.error.inj refused
      have least := le_position_of_decodeFrom left
      rwa [form, List.length_take, Nat.min_eq_left within] at least
  · rw [blames.position, List.drop_left]
    exact blames

/-- A surrogate behind a letter is refused where it begins. -/
example : decode [0x61, 0xED, 0xA0, 0x80] = .error ⟨1, [0xED], .invalidContinuation⟩ := rfl

end FileRoutes.Text.Utf8
