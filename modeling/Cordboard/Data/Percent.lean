import Mathlib.Data.List.Basic

namespace Data.Percent

/-- The UTF-8 bytes of a text. -/
def utf8 (text : String) : List UInt8 := text.toList.flatMap String.utf8EncodeChar

/-- A letter, a digit, or one of four marks stands for itself. -/
def unreserved (code : Nat) : Bool :=
  (48 ≤ code && code ≤ 57) || (65 ≤ code && code ≤ 90) || (97 ≤ code && code ≤ 122) ||
    code == 45 || code == 46 || code == 95 || code == 126

def hexDigit (value : Nat) : Char := Char.ofNat (if value < 10 then 48 + value else 55 + value)

def hexValue (c : Char) : Option Nat :=
  let code := c.toNat
  if 48 ≤ code ∧ code ≤ 57 then some (code - 48)
  else if 65 ≤ code ∧ code ≤ 70 then some (code - 55)
  else if 97 ≤ code ∧ code ≤ 102 then some (code - 87)
  else none

def quoteByte (byte : UInt8) : List Char :=
  if unreserved byte.toNat then [Char.ofNat byte.toNat]
  else ['%', hexDigit (byte.toNat / 16), hexDigit (byte.toNat % 16)]

/-- No character of the text is safe except the unreserved ones. -/
def quote (text : String) : String := String.ofList ((utf8 text).flatMap quoteByte)

/-- A percent sign before two hexadecimal digits stands for a byte. -/
def unquoteBytes : List Char → List UInt8
  | [] => []
  | [c] => [UInt8.ofNat c.toNat]
  | [c, d] => [UInt8.ofNat c.toNat, UInt8.ofNat d.toNat]
  | c :: high :: low :: rest =>
      if c = '%' then
        match hexValue high, hexValue low with
        | some first, some second => UInt8.ofNat (16 * first + second) :: unquoteBytes rest
        | _, _ => UInt8.ofNat c.toNat :: unquoteBytes (high :: low :: rest)
      else UInt8.ofNat c.toNat :: unquoteBytes (high :: low :: rest)

/-- A handler makes a text of bytes that are not UTF-8. -/
def decode (replaced : List UInt8 → String) (bytes : List UInt8) : String :=
  (String.fromUTF8? ⟨bytes.toArray⟩).getD (replaced bytes)

/-- Each run of ASCII characters is decoded apart. The argument holds the current run in reverse. -/
def unquoteRuns (replaced : List UInt8 → String) (run : List Char) : List Char → List Char
  | [] => (decode replaced (unquoteBytes run.reverse)).toList
  | c :: rest =>
      if c.toNat < 128 then unquoteRuns replaced (c :: run) rest
      else (decode replaced (unquoteBytes run.reverse)).toList ++ c :: unquoteRuns replaced [] rest

def unquote (replaced : List UInt8 → String) (text : String) : String :=
  if text.toList.contains '%' then String.ofList (unquoteRuns replaced [] text.toList) else text

section
variable {replaced : List UInt8 → String}

theorem decode_utf8 (text : String) : decode replaced (utf8 text) = text := by
  have bytes : (⟨(utf8 text).toArray⟩ : ByteArray) = text.toByteArray := by
    rw [← String.utf8Encode_toList]
    apply ByteArray.ext
    simp [utf8, List.utf8Encode]
  rw [decode, bytes, String.fromUTF8?, dif_pos text.isValidUTF8]
  rfl

theorem hexValue_hexDigit {value : Nat} (small : value < 16) : hexValue (hexDigit value) = some value := by
  have each : ∀ digit : Fin 16, hexValue (hexDigit digit.val) = some digit.val := by decide
  exact each ⟨value, small⟩

theorem hexDigit_small {value : Nat} (small : value < 16) :
    (hexDigit value).toNat < 128 ∧ hexDigit value ≠ '/' ∧ hexDigit value ≠ '%' := by
  have each : ∀ digit : Fin 16, (hexDigit digit.val).toNat < 128 ∧ hexDigit digit.val ≠ '/' ∧
      hexDigit digit.val ≠ '%' := by decide
  exact each ⟨value, small⟩

theorem byte_unreserved {code : Nat} (safe : unreserved code = true) :
    code < 128 ∧ code ≠ 47 ∧ code ≠ 37 := by
  simp only [unreserved, Bool.or_eq_true, Bool.and_eq_true, decide_eq_true_eq, beq_iff_eq] at safe
  omega

theorem toNat_ofNat {code : Nat} (small : code < 128) : (Char.ofNat code).toNat = code := by
  have each : ∀ value : Fin 128, (Char.ofNat value.val).toNat = value.val := by decide
  exact each ⟨code, small⟩

/-- A quoted byte is written in ASCII and without a slash. -/
theorem mem_quoteByte {byte : UInt8} {c : Char} (member : c ∈ quoteByte byte) : c.toNat < 128 ∧ c ≠ '/' := by
  unfold quoteByte at member
  have below := UInt8.toNat_lt byte
  split at member
  · rename_i safe
    obtain ⟨small, slash, _⟩ := byte_unreserved safe
    rw [List.mem_singleton.mp member]
    refine ⟨by rwa [toNat_ofNat small], ?_⟩
    intro same
    have code : (Char.ofNat byte.toNat).toNat = 47 := by rw [same]; rfl
    rw [toNat_ofNat small] at code
    exact slash code
  · simp only [List.mem_cons, List.not_mem_nil, or_false] at member
    rcases member with rfl | rfl | rfl
    · decide
    · have digit := hexDigit_small (show byte.toNat / 16 < 16 by omega)
      exact ⟨digit.1, digit.2.1⟩
    · have digit := hexDigit_small (show byte.toNat % 16 < 16 by omega)
      exact ⟨digit.1, digit.2.1⟩

theorem mem_quote {text : String} {c : Char} (member : c ∈ (quote text).toList) : c.toNat < 128 ∧ c ≠ '/' := by
  rw [quote, String.toList_ofList] at member
  obtain ⟨byte, _, inside⟩ := List.mem_flatMap.mp member
  exact mem_quoteByte inside

theorem unquoteBytes_cons {c : Char} (plain : c ≠ '%') (rest : List Char) :
    unquoteBytes (c :: rest) = UInt8.ofNat c.toNat :: unquoteBytes rest := by
  cases rest with
  | nil => rfl
  | cons high rest =>
      cases rest with
      | nil => rfl
      | cons low rest => rw [unquoteBytes, if_neg plain]

theorem unquoteBytes_quoteByte (byte : UInt8) (rest : List Char) :
    unquoteBytes (quoteByte byte ++ rest) = byte :: unquoteBytes rest := by
  have below := UInt8.toNat_lt byte
  unfold quoteByte
  split
  · rename_i safe
    obtain ⟨small, _, percent⟩ := byte_unreserved safe
    have plain : Char.ofNat byte.toNat ≠ '%' := by
      intro same
      have code : (Char.ofNat byte.toNat).toNat = 37 := by rw [same]; rfl
      rw [toNat_ofNat small] at code
      exact percent code
    rw [List.singleton_append, unquoteBytes_cons plain, toNat_ofNat small, UInt8.ofNat_toNat]
  · rw [List.cons_append, List.cons_append, List.cons_append, List.nil_append, unquoteBytes, if_pos rfl,
      hexValue_hexDigit (by omega), hexValue_hexDigit (by omega)]
    have whole : 16 * (byte.toNat / 16) + byte.toNat % 16 = byte.toNat := by omega
    simp only [whole, UInt8.ofNat_toNat]

theorem unquoteBytes_quote (bytes : List UInt8) : unquoteBytes (bytes.flatMap quoteByte) = bytes := by
  induction bytes with
  | nil => rfl
  | cons byte rest ih => rw [List.flatMap_cons, unquoteBytes_quoteByte, ih]

/-- An ASCII text is a single run. -/
theorem unquoteRuns_ascii {rest run : List Char} (ascii : ∀ c ∈ rest, c.toNat < 128) :
    unquoteRuns replaced run rest = (decode replaced (unquoteBytes (run.reverse ++ rest))).toList := by
  induction rest generalizing run with
  | nil => rw [List.append_nil, unquoteRuns]
  | cons c rest ih =>
      rw [unquoteRuns, if_pos (ascii c List.mem_cons_self), ih fun d member => ascii d (List.mem_cons_of_mem c member)]
      rw [List.reverse_cons, List.append_assoc, List.singleton_append]

theorem utf8EncodeChar_ascii {c : Char} (ascii : c.toNat < 128) : String.utf8EncodeChar c = [UInt8.ofNat c.toNat] := by
  have size : c.utf8Size = 1 := by
    rw [Char.utf8Size_eq_one_iff]
    have value : c.val.toNat < 128 := ascii
    rw [UInt32.le_iff_toNat_le]
    change c.val.toNat ≤ 127
    omega
  rw [String.utf8EncodeChar_eq_singleton size]
  apply congrArg (fun byte => [byte])
  apply UInt8.toNat_inj.mp
  rw [UInt32.toNat_toUInt8, UInt8.toNat_ofNat']
  rfl

theorem unquoteBytes_plain {chars : List Char} (plain : '%' ∉ chars) (ascii : ∀ c ∈ chars, c.toNat < 128) :
    unquoteBytes chars = chars.flatMap String.utf8EncodeChar := by
  induction chars with
  | nil => rfl
  | cons c rest ih =>
      rw [List.mem_cons, not_or] at plain
      rw [unquoteBytes_cons (Ne.symm plain.1), List.flatMap_cons, utf8EncodeChar_ascii (ascii c List.mem_cons_self),
        ih plain.2 fun d member => ascii d (List.mem_cons_of_mem c member)]
      rfl

/-- Decoding undoes quoting for every text. -/
@[simp] theorem unquote_quote (text : String) : unquote replaced (quote text) = text := by
  have ascii : ∀ c ∈ (quote text).toList, c.toNat < 128 := fun c member => (mem_quote member).1
  have bytes : unquoteBytes (quote text).toList = utf8 text := by
    rw [quote, String.toList_ofList, unquoteBytes_quote]
  unfold unquote
  split
  · rw [unquoteRuns_ascii ascii, List.reverse_nil, List.nil_append, bytes, decode_utf8, String.ofList_toList]
  · rename_i plain
    have absent : '%' ∉ (quote text).toList := by simpa using plain
    have same : utf8 (quote text) = utf8 text := by
      rw [← bytes, unquoteBytes_plain absent ascii]
      rfl
    rw [← @decode_utf8 replaced (quote text), same, decode_utf8]

/-- A quoted text is one segment of a path. -/
theorem slash_not_mem_quote (text : String) : '/' ∉ (quote text).toList := fun member => (mem_quote member).2 rfl

end

end Data.Percent
