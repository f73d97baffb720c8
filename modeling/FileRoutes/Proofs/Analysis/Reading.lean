import FileRoutes.Proofs.Analysis.Directory
import FileRoutes.Proofs.Text.Utf8.Fault

/-! # Reading a file

What is read from a file is the text that its bytes are the UTF-8 form of, whatever style its lines
end in (`unifyLineEndings_write`), so that the style does not show in the record. Bytes that are no
UTF-8 are no text. The record says where they stop being one (`Fault.names_message`). Both are put
together in `analyzeFile_of_bytes`. -/

namespace FileRoutes

/-! ## Line endings -/

namespace Text

/-- A style of ending lines. -/
inductive LineEnding where
  /-- A line feed. -/
  | lineFeed
  /-- A carriage return. -/
  | carriageReturn
  /-- A carriage return with a line feed after it. -/
  | both
  deriving DecidableEq, Repr

namespace LineEnding

/-- The characters at the end of a line. -/
def chars : LineEnding → List Char
  | lineFeed => ['\n']
  | carriageReturn => ['\r']
  | both => ['\r', '\n']

/-- A text with every line feed **written in a style**. -/
def write (ending : LineEnding) (text : List Char) : List Char :=
  text.flatMap fun c => if c = '\n' then ending.chars else [c]

end LineEnding

/-- A character is read by itself unless it is a carriage return with a line feed after it. -/
theorem unifyLineEndings_cons {c : Char} {rest : List Char}
    (alone : c ≠ '\r' ∨ rest.head? ≠ some '\n') :
    unifyLineEndings (c :: rest) = (if c = '\r' then '\n' else c) :: unifyLineEndings rest := by
  rw [unifyLineEndings]
  rintro after rfl rfl
  exact alone.elim (absurd rfl) (absurd rfl)

/-- Where lines end with carriage returns alone, no line feed stands. -/
theorem head?_write_carriageReturn (text : List Char) :
    (LineEnding.carriageReturn.write text).head? ≠ some '\n' := by
  cases text with
  | nil => nofun
  | cons c text =>
    rw [LineEnding.write, List.flatMap_cons]
    split
    next => nofun
    next other => exact fun same => other (Option.some.inj same)

/-- **The style of the line endings is lost in reading**: what is written in one is read as it
was. -/
theorem unifyLineEndings_write (ending : LineEnding) {text : List Char} (free : '\r' ∉ text) :
    unifyLineEndings (ending.write text) = text := by
  induction text with
  | nil => rfl
  | cons c text ih =>
    obtain ⟨other, free⟩ := not_or.1 (mt List.mem_cons.2 free)
    specialize ih free
    rw [LineEnding.write, List.flatMap_cons, ← LineEnding.write]
    split
    next same =>
      cases same
      cases ending with
      | lineFeed =>
        rw [LineEnding.chars, List.singleton_append,
          unifyLineEndings_cons (.inl (Ne.symm other)), ih]
        rfl
      | carriageReturn =>
        rw [LineEnding.chars, List.singleton_append,
          unifyLineEndings_cons (.inr (head?_write_carriageReturn text)), ih]
        rfl
      | both => rw [LineEnding.chars, List.cons_append, List.singleton_append, unifyLineEndings, ih]
    next =>
      rw [List.singleton_append, unifyLineEndings_cons (.inl (Ne.symm other)), ih,
        if_neg (Ne.symm other)]

/-! ## Messages -/

namespace Utf8

/-- A message **names the bytes from a position on**: the byte that stands there, or several bytes
by the first and the last offset. -/
def Names (message : String) (bytes : List UInt8) (position : Nat) : Prop :=
  ∃ reason : Reason,
    (∃ byte, bytes[position]? = some byte ∧ message =
      "'utf-8' codec can't decode " ++ ("byte 0x" ++ String.ofList (hexDigits 2 byte.toNat) ++
        " in position " ++ toString position) ++ ": " ++ reason.message) ∨
    ∃ last, position < last ∧ last < bytes.length ∧ message =
      "'utf-8' codec can't decode " ++ ("bytes in position " ++ toString position ++ "-" ++
        toString last) ++ ": " ++ reason.message

/-- **The message of a refusal names the bytes** that are blamed. -/
theorem Fault.Blames.names_message {fault : Fault} {bytes : List UInt8} {position : Nat}
    (blames : fault.Blames position (bytes.drop position)) :
    Names fault.message bytes position := by
  obtain ⟨start, named, reason⟩ := fault
  obtain ⟨rfl, ne_nil, rest, equal⟩ := blames
  refine ⟨reason, ?_⟩
  obtain _ | ⟨byte, _ | ⟨second, more⟩⟩ := named
  · exact absurd rfl ne_nil
  · refine .inl ⟨byte, ?_, rfl⟩
    rw [← List.head?_drop, ← equal]
    rfl
  · refine .inr ⟨start + (byte :: second :: more).length - 1, ?_, ?_, rfl⟩
    · simp only [List.length_cons]
      omega
    · have length := congrArg List.length equal
      simp only [List.length_append, List.length_cons, List.length_drop] at length ⊢
      omega

end Utf8

end Text

/-! ## Records -/

section Reading

open Text.Utf8 (encode IsUtf8)

variable {fs : FileSystem} {file : String}

/-- A file that holds a text is read with line feeds for all line endings. -/
theorem readSource_of_encode {text : List Char}
    (holds : fs.bytes (.ofString file) = .ok (encode text)) :
    readSource fs file = .ok (Text.unifyLineEndings text) := by
  rw [readSource_of_bytes holds, Text.Utf8.decode_encode]
  rfl

/-- **What the bytes of a file make of its record.** A text without carriage returns gives the same
record in whatever style its line feeds are written. Bytes that are no UTF-8 give a record without
exports and with one problem, which names the bytes behind the longest beginning that is UTF-8. -/
theorem analyzeFile_of_bytes (file root : String) (reader : Option OptionsReader) :
    (∀ (fs fs' : FileSystem) (ending : Text.LineEnding) (text : List Char), '\r' ∉ text →
      fs.bytes (.ofString file) = .ok (encode text) →
      fs'.bytes (.ofString file) = .ok (encode (ending.write text)) →
      analyzeFile fs' reader file root = analyzeFile fs reader file root) ∧
    ∀ (fs : FileSystem) (bytes : List UInt8),
      fs.bytes (.ofString file) = .ok bytes → ¬ IsUtf8 bytes →
      (analyzeFile fs reader file root).exports = [] ∧
        ∃ message position,
          (analyzeFile fs reader file root).errors =
            [.ofMessage ("Failed to read file: " ++ message)] ∧
          Text.Utf8.Names message bytes position ∧
          IsGreatest {count | count ≤ bytes.length ∧ IsUtf8 (bytes.take count)} position := by
  refine ⟨fun fs fs' ending text free holds holds' => ?_, fun fs bytes holds invalid => ?_⟩
  · rw [analyzeFile_of_readSource (readSource_of_encode holds'),
      analyzeFile_of_readSource (readSource_of_encode holds),
      Text.unifyLineEndings_write ending free, Text.unifyLineEndings_eq_self free]
  · obtain ⟨fault, refused, greatest, blames⟩ := Text.Utf8.exists_decode_eq_error invalid
    have unread : readSource fs file = .error (.undecodable fault) := by
      rw [readSource_of_bytes holds, refused]
      rfl
    rw [analyzeFile_of_error unread]
    exact ⟨rfl, fault.message, fault.position, rfl, blames.names_message, greatest⟩

/-- A letter, a sign of three bytes without the last one, and a letter. -/
def brokenBytes : List UInt8 := [0x61, 0xE2, 0x82, 0x41]

/-- A handler on two lines, read with either style, and bytes that are no text. -/
theorem analyzeFile_of_bytes_broken :
    analyzeFile (onlyFile (encode (Text.LineEnding.both.write "export const\nget = 1".toList)))
        (some declaredOptions) "a.ts" "" =
      analyzeFile (onlyFile (encode "export const\nget = 1".toList)) (some declaredOptions)
        "a.ts" "" ∧
    ¬ IsUtf8 brokenBytes ∧
    (analyzeFile (onlyFile brokenBytes) (some declaredOptions) "a.ts" "").exports = [] ∧
      ∃ message position,
        (analyzeFile (onlyFile brokenBytes) (some declaredOptions) "a.ts" "").errors =
          [.ofMessage ("Failed to read file: " ++ message)] ∧
        Text.Utf8.Names message brokenBytes position ∧
        IsGreatest {count | count ≤ brokenBytes.length ∧ IsUtf8 (brokenBytes.take count)}
          position := by
  have invalid : ¬ IsUtf8 brokenBytes := by
    rintro ⟨text, form⟩
    cases Text.Utf8.decode_eq_ok_iff.2 form
  obtain ⟨same, refused⟩ := analyzeFile_of_bytes "a.ts" "" (some declaredOptions)
  exact ⟨same _ _ .both _ (by decide) (bytes_onlyFile _) (bytes_onlyFile _), invalid,
    refused _ brokenBytes (bytes_onlyFile _) invalid⟩

end Reading

end FileRoutes
