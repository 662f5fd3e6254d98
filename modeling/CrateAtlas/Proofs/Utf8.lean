import CrateAtlas.Text.Bytes
import Mathlib.Data.List.Basic

/-!
Texts and their bytes. A text is read back from its bytes, bytes are a text exactly if none of them is
given up, and a character of ASCII occurs in a text as its byte occurs among the bytes.
-/

namespace CrateAtlas.Bytes

theorem ofText_eq_flatMap (text : String) :
    ofText text = text.toList.flatMap String.utf8EncodeChar := by
  rw [ofText, ← String.utf8Encode_toList, List.utf8Encode, List.data_toByteArray]

theorem ofText_append (first second : String) :
    ofText (first ++ second) = ofText first ++ ofText second := by
  simp [ofText_eq_flatMap]

@[simp] theorem ofText_inj {first second : String} :
    ofText first = ofText second ↔ first = second := by
  constructor
  · intro same
    apply String.toByteArray_inj.mp
    apply ByteArray.ext
    exact Array.toList_inj.mp same
  · exact congrArg ofText

@[simp] theorem ofText_eq_nil_iff {text : String} : ofText text = [] ↔ text = "" :=
  @ofText_inj text ""

section

variable {bytes rest : Bytes} {c : Char}

private theorem charsFrom_length_append (front rest : Bytes) :
    charsFrom front.length (front ++ rest) = charsFrom 0 rest := by
  induction front with
  | nil => rfl
  | cons byte front ih => simpa [charsFrom] using ih

private theorem charsFrom_cons_of_decode {byte : UInt8}
    (decoded : (byte :: bytes).toByteArray.utf8DecodeChar? 0 = some c) :
    charsFrom 0 (byte :: bytes) = some c :: charsFrom (c.utf8Size - 1) bytes := by
  rw [charsFrom, decoded]

private theorem charsFrom_encode_append (c : Char) (rest : Bytes) :
    charsFrom 0 (String.utf8EncodeChar c ++ rest) = some c :: charsFrom 0 rest := by
  have decoded : (String.utf8EncodeChar c ++ rest).toByteArray.utf8DecodeChar? 0 = some c := by
    rw [List.toByteArray_append]
    exact ByteArray.utf8DecodeChar?_utf8EncodeChar_append
  have size := String.length_utf8EncodeChar c
  cases encoded : String.utf8EncodeChar c with
  | nil =>
    rw [encoded, List.length_nil] at size
    exact absurd size.symm (Nat.ne_of_gt c.utf8Size_pos)
  | cons byte front =>
    rw [encoded, List.length_cons] at size
    rw [encoded, List.cons_append] at decoded
    rw [List.cons_append, charsFrom_cons_of_decode decoded, ← size, Nat.add_sub_cancel,
      charsFrom_length_append]

/-- Bytes that start with a character have the form of that character in front. -/
private theorem exists_eq_encode_append (decoded : bytes.toByteArray.utf8DecodeChar? 0 = some c) :
    ∃ rest, bytes = String.utf8EncodeChar c ++ rest := by
  obtain ⟨rest, split⟩ := ByteArray.exists_of_utf8DecodeChar?_eq_some decoded
  refine ⟨rest.data.toList, ?_⟩
  have data := congrArg (·.data.toList) split
  simpa using data

end

@[simp] theorem chars_ofText (text : String) : (ofText text).chars = text.toList.map some := by
  rw [ofText_eq_flatMap, chars]
  induction text.toList with
  | nil => rfl
  | cons c rest ih => rw [List.flatMap_cons, charsFrom_encode_append, ih, List.map_cons]

@[simp] theorem display_ofText (text : String) : (ofText text).display = text := by
  simp [display, Function.comp_def]

@[simp] theorem text?_ofText (text : String) : (ofText text).text? = some text := by
  have all : (text.toList.map some).mapM id = some text.toList := by
    induction text.toList with
    | nil => rfl
    | cons c rest ih => simp [ih]
  simp [text?, all]

private theorem eq_flatMap_of_chars {bytes : Bytes} {text : List Char}
    (read : bytes.chars.mapM id = some text) : bytes = text.flatMap String.utf8EncodeChar := by
  -- the bytes behind the first character are fewer
  induction text generalizing bytes with
  | nil =>
    cases bytes with
    | nil => rfl
    | cons byte rest =>
      rw [chars, charsFrom] at read
      split at read <;> simp [Option.bind_eq_some_iff] at read
  | cons c text ih =>
    cases bytes with
    | nil => simp [chars, charsFrom] at read
    | cons byte rest =>
      cases decoded : (byte :: rest).toByteArray.utf8DecodeChar? 0 with
      | none =>
        rw [chars, charsFrom, decoded] at read
        simp at read
      | some first =>
        obtain ⟨behind, split⟩ := exists_eq_encode_append decoded
        rw [split, chars, charsFrom_encode_append] at read
        have parts : (charsFrom 0 behind).mapM id = some text ∧ first = c := by
          simpa [Option.bind_eq_some_iff] using read
        obtain ⟨later, rfl⟩ := parts
        rw [split, List.flatMap_cons, ← ih later]

private theorem text?_eq_some_iff {bytes : Bytes} {text : String} :
    bytes.text? = some text ↔ bytes = ofText text := by
  constructor
  · intro read
    obtain ⟨chars, all, rfl⟩ := Option.map_eq_some_iff.mp read
    rw [eq_flatMap_of_chars all, ofText_eq_flatMap, String.toList_ofList]
  · rintro rfl
    exact text?_ofText text

private theorem mapM_id_of_clean {chars : List (Option Char)}
    (clean : '�' ∉ chars.map (·.getD '�')) : chars.mapM id = some (chars.map (·.getD '�')) := by
  induction chars with
  | nil => rfl
  | cons first rest ih =>
    cases first with
    | none => simp at clean
    | some c =>
      rw [List.map_cons, List.mem_cons, not_or] at clean
      simp [ih clean.2]

/-- Bytes that are shown without a replacement are a text, namely the one that is shown. -/
theorem display_eq_iff {bytes : Bytes} {text : String} (clean : '�' ∉ text.toList) :
    bytes.display = text ↔ bytes = ofText text := by
  constructor
  · intro shown
    have letters : bytes.chars.map (·.getD '�') = text.toList := by
      rw [← shown, display, String.toList_ofList]
    rw [← letters] at clean
    rw [eq_flatMap_of_chars (mapM_id_of_clean clean), letters, ofText_eq_flatMap]
  · rintro rfl
    exact display_ofText text

theorem display_head?_eq_some_iff {bytes : Bytes} {c : Char} (clean : c ≠ '�') :
    bytes.display.toList.head? = some c ↔ ∃ rest, bytes = String.utf8EncodeChar c ++ rest := by
  rw [display, String.toList_ofList]
  constructor
  · intro first
    cases bytes with
    | nil => cases first
    | cons byte rest =>
      cases decoded : (byte :: rest).toByteArray.utf8DecodeChar? 0 with
      | none =>
        rw [chars, charsFrom, decoded] at first
        exact absurd (Option.some.inj first).symm clean
      | some other =>
        rw [chars, charsFrom_cons_of_decode decoded] at first
        obtain rfl : other = c := Option.some.inj first
        exact exists_eq_encode_append decoded
  · rintro ⟨rest, rfl⟩
    rw [chars, charsFrom_encode_append]
    rfl

def IsText (bytes : Bytes) : Prop :=
  bytes.text?.isSome = true

instance (bytes : Bytes) : Decidable bytes.IsText :=
  inferInstanceAs (Decidable (_ = _))

theorem isText_iff_exists {bytes : Bytes} : bytes.IsText ↔ ∃ text, bytes = ofText text := by
  rw [IsText, Option.isSome_iff_exists]
  exact exists_congr fun text => text?_eq_some_iff

theorem isText_iff_display {bytes : Bytes} : bytes.IsText ↔ ofText bytes.display = bytes := by
  rw [isText_iff_exists]
  constructor
  · rintro ⟨text, rfl⟩
    rw [display_ofText]
  · intro same
    exact ⟨bytes.display, same.symm⟩

@[simp] theorem isText_ofText (text : String) : (ofText text).IsText :=
  isText_iff_exists.mpr ⟨text, rfl⟩

theorem IsText.append {first second : Bytes} (text : first.IsText) (text' : second.IsText) :
    (first ++ second).IsText := by
  obtain ⟨front, rfl⟩ := isText_iff_exists.mp text
  obtain ⟨back, rfl⟩ := isText_iff_exists.mp text'
  exact isText_iff_exists.mpr ⟨front ++ back, (ofText_append front back).symm⟩

/-- In the form of a character beyond ASCII, no byte is one of ASCII. -/
private theorem ascii_mem_encode {c : Char} {byte : UInt8} (ascii : byte < 0x80) :
    byte ∈ String.utf8EncodeChar c ↔ c.toNat = byte.toNat := by
  have small : byte.toNat < 128 := UInt8.lt_iff_toNat_lt.mp ascii
  have code : c.val.toNat = c.toNat := rfl
  have equal (n : Nat) : byte = UInt8.ofNat n ↔ byte.toNat = n % 256 := by
    rw [← UInt8.toNat_inj, UInt8.toNat_ofNat']
  simp only [String.utf8EncodeChar, code]
  split
  · simp only [List.mem_singleton, equal]
    omega
  · split
    · simp only [List.mem_cons, List.not_mem_nil, or_false, equal]
      omega
    · split
      · simp only [List.mem_cons, List.not_mem_nil, or_false, equal]
        omega
      · simp only [List.mem_cons, List.not_mem_nil, or_false, equal]
        omega

theorem ascii_mem_ofText {text : String} {c : Char} (ascii : c.toUInt8 < 0x80)
    (short : c.toUInt8.toNat = c.toNat) : c.toUInt8 ∈ ofText text ↔ c ∈ text.toList := by
  rw [ofText_eq_flatMap, List.mem_flatMap]
  constructor
  · rintro ⟨other, member, encoded⟩
    have same : other.toNat = c.toNat := ((ascii_mem_encode ascii).mp encoded).trans short
    rwa [← Char.toNat_inj.mp same]
  · intro member
    exact ⟨c, member, (ascii_mem_encode ascii).mpr short.symm⟩

end CrateAtlas.Bytes
