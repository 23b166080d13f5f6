import PipeK1.Library.ByteData
import Mathlib.Data.List.Infix
import Mathlib.Data.List.Induction

/-!
# Text

Operations of a UTF-8 string type with Unicode scalar values as its characters:
trimming, line and token splitting, substring tests and decimal parsing. A
string is the list of its characters.
-/

set_option autoImplicit false

namespace Text

open ByteData

/-- The Unicode `White_Space` property. -/
def isWhitespace (c : Char) : Bool :=
  let n := c.toNat
  (9 ≤ n && n ≤ 13) || n = 0x20 || n = 0x85 || n = 0xA0 || n = 0x1680 ||
    (0x2000 ≤ n && n ≤ 0x200A) || n = 0x2028 || n = 0x2029 || n = 0x202F || n = 0x205F ||
    n = 0x3000

/-- `str::trim`. -/
def trim (text : List Char) : List Char :=
  ((text.dropWhile isWhitespace).reverse.dropWhile isWhitespace).reverse

/-- `str::contains` of a substring. -/
def contains (pattern : List Char) : List Char → Bool
  | [] => pattern.isEmpty
  | c :: text => pattern.isPrefixOf (c :: text) || contains pattern text

/-- The characters of a line, collected in reverse, without the `\r` of `\r\n`. -/
private def dropCarriageReturn : List Char → List Char
  | '\r' :: line => line
  | line => line

private def linesFrom : List Char → List Char → List (List Char)
  | [], [] => []
  | line@(_ :: _), [] => [line.reverse]
  | line, '\n' :: text => (dropCarriageReturn line).reverse :: linesFrom [] text
  | line, c :: text => linesFrom (c :: line) text

/-- `str::lines`: the pieces between line feeds, a carriage return before a line
feed removed, no piece after a final line feed. -/
def lines (text : List Char) : List (List Char) := linesFrom [] text

private def tokensFrom : List Char → List Char → List (List Char)
  | [], [] => []
  | token@(_ :: _), [] => [token.reverse]
  | [], c :: text => if isWhitespace c then tokensFrom [] text else tokensFrom [c] text
  | token@(_ :: _), c :: text =>
      if isWhitespace c then token.reverse :: tokensFrom [] text else tokensFrom (c :: token) text

/-- `str::split_whitespace`. -/
def splitWhitespace (text : List Char) : List (List Char) := tokensFrom [] text

private def digitsValue : Nat → List Char → Option Nat
  | value, [] => some value
  | value, c :: text =>
      if '0' ≤ c ∧ c ≤ '9' then digitsValue (value * 10 + (c.toNat - '0'.toNat)) text else none

/-- A nonempty run of decimal digits. -/
def decimal : List Char → Option Nat
  | [] => none
  | text => digitsValue 0 text

/-- `FromStr` of an unsigned integer type with values below `bound`. -/
def parseUnsigned (bound : Nat) (text : List Char) : Option Nat :=
  let digits :=
    match text with
    | '+' :: rest => rest
    | _ => text
  (decimal digits).filter (· < bound)

/-- `FromStr` of `i32`. -/
def parseI32 (text : List Char) : Option Int :=
  match text with
  | '-' :: rest => ((decimal rest).filter (· ≤ 2147483648)).map fun n => -(n : Int)
  | _ => (parseUnsigned 2147483648 text).map fun n => (n : Int)

def parseU8 (text : List Char) : Option UInt8 := (parseUnsigned 256 text).map UInt8.ofNat

def parseU32 (text : List Char) : Option UInt32 :=
  (parseUnsigned 4294967296 text).map UInt32.ofNat

def parseU64 (text : List Char) : Option UInt64 :=
  (parseUnsigned 18446744073709551616 text).map UInt64.ofNat

/-- `str::from_utf8`. -/
def fromUtf8 (bytes : Bytes) : Option (List Char) :=
  (ByteArray.utf8Decode? ⟨bytes.toArray⟩).map Array.toList

/-- The UTF-8 bytes of a string. -/
def utf8 (text : String) : Bytes := text.toUTF8.data.toList

/-! ## UTF-8 -/

theorem utf8_ofList (text : List Char) :
    utf8 (String.ofList text) = text.flatMap String.utf8EncodeChar := by
  rw [utf8, String.toUTF8, String.toByteArray_ofList, List.utf8Encode, List.toList_data_toByteArray]

/-- Decoding accepts exactly the encoded texts, and gives back the text. -/
theorem fromUtf8_eq_some_iff {bytes : Bytes} {text : List Char} :
    fromUtf8 bytes = some text ↔ bytes = utf8 (String.ofList text) := by
  have array : ∀ chars : List Char, (⟨(utf8 (String.ofList chars)).toArray⟩ : ByteArray) =
      chars.utf8Encode := by
    intro chars
    rw [utf8, String.toUTF8, String.toByteArray_ofList]
  constructor
  · intro decoded
    obtain ⟨chars, found, rfl⟩ := Option.map_eq_some_iff.mp decoded
    have encoded := @ByteArray.utf8Encode_get_utf8Decode? _ (Option.isSome_of_eq_some found)
    simp only [found, Option.get_some] at encoded
    rw [utf8, String.toUTF8, String.toByteArray_ofList, encoded]
  · rintro rfl
    rw [fromUtf8, array, List.utf8Decode?_utf8Encode]
    rfl

theorem utf8_of_ascii {text : List Char} (ascii : ∀ c ∈ text, c.toNat < 128) :
    utf8 (String.ofList text) = text.map fun c => UInt8.ofNat c.toNat := by
  rw [utf8_ofList, List.map_eq_flatMap]
  apply List.flatMap_congr
  intro c member
  have small := ascii c member
  have one : c.utf8Size = 1 := Char.utf8Size_eq_one_iff.mpr (by
    rw [UInt32.le_iff_toNat_le]
    exact Nat.le_of_lt_succ small)
  rw [String.utf8EncodeChar_eq_singleton one]
  rfl

theorem lt_of_mem_utf8EncodeChar {c : Char} {byte : UInt8}
    (member : byte ∈ String.utf8EncodeChar c) : byte.toNat < 0xf8 := by
  have valid : c.val.toNat < 0x110000 := by
    rcases c.valid with low | ⟨_, high⟩
    · exact Nat.lt_trans low (by decide)
    · exact high
  unfold String.utf8EncodeChar at member
  generalize c.val.toNat = v at member valid
  have bytes : ∀ n, n < 0xf8 → (UInt8.ofNat n).toNat < 0xf8 := by
    intro n small
    rw [UInt8.toNat_ofNat']
    omega
  simp only at member
  split at member
  · obtain rfl := List.mem_singleton.mp member
    exact bytes v (by omega)
  · split at member
    · simp only [List.mem_cons, List.not_mem_nil, or_false] at member
      rcases member with rfl | rfl <;> exact bytes _ (by omega)
    · split at member
      · simp only [List.mem_cons, List.not_mem_nil, or_false] at member
        rcases member with rfl | rfl | rfl <;> exact bytes _ (by omega)
      · simp only [List.mem_cons, List.not_mem_nil, or_false] at member
        rcases member with rfl | rfl | rfl | rfl <;> exact bytes _ (by omega)

/-- No encoded text has a byte of 0xf8 or more. -/
theorem fromUtf8_eq_none {bytes : Bytes} {byte : UInt8} (member : byte ∈ bytes)
    (high : 0xf8 ≤ byte.toNat) : fromUtf8 bytes = none := by
  by_contra decoded
  obtain ⟨text, some⟩ := Option.ne_none_iff_exists'.mp decoded
  rw [fromUtf8_eq_some_iff.mp some, utf8_ofList] at member
  obtain ⟨c, _, here⟩ := List.mem_flatMap.mp member
  exact absurd (lt_of_mem_utf8EncodeChar here) (Nat.not_lt_of_le high)

theorem utf8_append (left right : String) : utf8 (left ++ right) = utf8 left ++ utf8 right := by
  rw [← String.ofList_toList (s := left), ← String.ofList_toList (s := right),
    ← String.ofList_append, utf8_ofList, utf8_ofList, utf8_ofList, List.flatMap_append]

theorem exists_high_byte {c : Char} (high : 128 ≤ c.toNat) :
    ∃ byte ∈ String.utf8EncodeChar c, 128 ≤ byte.toNat := by
  have valid : c.val.toNat < 0x110000 := by
    rcases c.valid with low | ⟨_, high⟩
    · exact Nat.lt_trans low (by decide)
    · exact high
  change 128 ≤ c.val.toNat at high
  unfold String.utf8EncodeChar
  generalize c.val.toNat = v at high valid
  have bytes : ∀ n, 128 ≤ n → n < 256 → 128 ≤ (UInt8.ofNat n).toNat := by
    intro n low small
    rw [UInt8.toNat_ofNat']
    omega
  simp only
  split
  · omega
  · split
    · exact ⟨_, List.mem_cons_self, bytes _ (by omega) (by omega)⟩
    · split
      · exact ⟨_, List.mem_cons_self, bytes _ (by omega) (by omega)⟩
      · exact ⟨_, List.mem_cons_self, bytes _ (by omega) (by omega)⟩

theorem ascii_of_utf8 {text : String} (ascii : ∀ byte ∈ utf8 text, byte.toNat < 128) :
    ∀ c ∈ text.toList, c.toNat < 128 := by
  intro c member
  by_contra high
  obtain ⟨byte, inside, large⟩ := exists_high_byte (Nat.le_of_not_lt high)
  refine absurd (ascii byte ?_) (Nat.not_lt_of_le large)
  rw [← String.ofList_toList (s := text), utf8_ofList]
  exact List.mem_flatMap.mpr ⟨c, member, inside⟩

theorem fromUtf8_utf8 (text : String) : fromUtf8 (utf8 text) = some text.toList :=
  fromUtf8_eq_some_iff.mpr (by rw [String.ofList_toList])

theorem utf8_injective {left right : String} (same : utf8 left = utf8 right) : left = right := by
  have texts := congrArg fromUtf8 same
  rw [fromUtf8_utf8, fromUtf8_utf8, Option.some.injEq] at texts
  exact String.toList_injective texts

/-! ## Substrings -/

theorem contains_iff {pattern text : List Char} :
    contains pattern text = true ↔ pattern <:+: text := by
  induction text with
  | nil => simp [contains]
  | cons c text ih =>
      rw [contains, Bool.or_eq_true, List.isPrefixOf_iff_prefix, ih, List.infix_cons_iff]

theorem contains_eq_false {pattern text : List Char} {c : Char} (member : c ∈ pattern)
    (missing : c ∉ text) : contains pattern text = false := by
  rw [Bool.eq_false_iff, ne_eq, contains_iff]
  exact fun found => missing (found.subset member)

/-- A pattern reaches no further than the last place of its last character. -/
theorem infix_of_append {pattern front back : List Char} {c : Char}
    (found : pattern ++ [c] <:+: front ++ back) (missing : c ∉ back) :
    pattern ++ [c] <:+: front := by
  obtain ⟨before, after, whole⟩ := found
  rcases List.append_eq_append_iff.mp whole with ⟨rest, front_eq, _⟩ | ⟨rest, whole', back_eq⟩
  · exact ⟨before, rest, front_eq.symm⟩
  · cases rest using List.reverseRecOn with
    | nil =>
        rw [List.append_nil] at whole'
        exact ⟨before, [], by rw [List.append_nil, whole']⟩
    | append_singleton rest last =>
        rw [← List.append_assoc, ← List.append_assoc] at whole'
        obtain ⟨_, same⟩ := List.append_inj' whole' rfl
        refine absurd ?_ missing
        rw [back_eq, List.cons.inj same |>.1]
        simp

/-! ## Lines -/

private theorem linesFrom_line {line rest : List Char} (seen : List Char) (single : '\n' ∉ line) :
    linesFrom seen (line ++ '\n' :: rest) =
      (dropCarriageReturn (line.reverse ++ seen)).reverse :: linesFrom [] rest := by
  induction line generalizing seen with
  | nil => cases seen <;> rfl
  | cons c line ih =>
      have other : c ≠ '\n' := fun same => single (same ▸ List.mem_cons_self)
      have later := ih (c :: seen) fun member => single (List.mem_cons_of_mem c member)
      rw [List.cons_append, List.reverse_cons, List.append_assoc, List.singleton_append, ← later]
      cases seen <;> simp [linesFrom]

/-! ## Tokens -/

private theorem solid_of_mem_tokensFrom {token text : List Char} (seen : List Char)
    (solid : ∀ c ∈ seen, isWhitespace c = false) (member : token ∈ tokensFrom seen text) :
    token ≠ [] ∧ ∀ c ∈ token, isWhitespace c = false := by
  have reversed : ∀ {first : Char} {others : List Char},
      (∀ c ∈ first :: others, isWhitespace c = false) →
      (first :: others).reverse ≠ [] ∧ ∀ c ∈ (first :: others).reverse, isWhitespace c = false :=
    fun solid => ⟨by simp, fun c inside => solid c (List.mem_reverse.mp inside)⟩
  induction text generalizing seen with
  | nil =>
      cases seen with
      | nil => exact absurd member List.not_mem_nil
      | cons first others =>
          rw [tokensFrom, List.mem_singleton] at member
          rw [member]
          exact reversed solid
  | cons next text ih =>
      cases seen with
      | nil =>
          rw [tokensFrom] at member
          cases blank : isWhitespace next with
          | true =>
              rw [blank, if_pos rfl] at member
              exact ih [] (fun _ none => absurd none List.not_mem_nil) member
          | false =>
              rw [blank, if_neg Bool.false_ne_true] at member
              exact ih [next] (by simpa using blank) member
      | cons first others =>
          rw [tokensFrom] at member
          cases blank : isWhitespace next with
          | true =>
              rw [blank, if_pos rfl] at member
              rcases List.mem_cons.mp member with rfl | later
              · exact reversed solid
              · exact ih [] (fun _ none => absurd none List.not_mem_nil) later
          | false =>
              rw [blank, if_neg Bool.false_ne_true] at member
              refine ih (next :: first :: others) (fun c inside => ?_) member
              rcases List.mem_cons.mp inside with rfl | earlier
              · exact blank
              · exact solid c earlier

/-- Tokens are not empty and have no white space in them. -/
theorem solid_of_mem_splitWhitespace {token text : List Char}
    (member : token ∈ splitWhitespace text) :
    token ≠ [] ∧ ∀ c ∈ token, isWhitespace c = false :=
  solid_of_mem_tokensFrom [] (fun _ none => absurd none List.not_mem_nil) member

/-! ## Trimming -/

theorem infix_of_trim (text : List Char) : trim text <:+: text := by
  have back : trim text <+: text.dropWhile isWhitespace := by
    rw [← List.reverse_reverse (text.dropWhile isWhitespace), trim, List.reverse_prefix]
    exact List.dropWhile_suffix _
  exact back.isInfix.trans (List.dropWhile_suffix _).isInfix

theorem solid_of_all {text : List Char} (solid : (text.all fun c => !isWhitespace c) = true) :
    ∀ c ∈ text, isWhitespace c = false := by
  intro c member
  simpa using List.all_eq_true.mp solid c member

theorem trim_of_solid {text : List Char} (solid : ∀ c ∈ text, isWhitespace c = false) :
    trim text = text := by
  have kept : ∀ chars : List Char, (∀ c ∈ chars, isWhitespace c = false) →
      chars.dropWhile isWhitespace = chars := by
    intro chars solid
    cases chars with
    | nil => rfl
    | cons c chars => rw [List.dropWhile_cons, solid c List.mem_cons_self]; rfl
  rw [trim, kept text solid, kept text.reverse fun c member => solid c (List.mem_reverse.mp member),
    List.reverse_reverse]

theorem dropWhile_blank {blank rest : List Char} (white : ∀ c ∈ blank, isWhitespace c = true) :
    (blank ++ rest).dropWhile isWhitespace = rest.dropWhile isWhitespace := by
  induction blank with
  | nil => rfl
  | cons c blank ih =>
      rw [List.cons_append, List.dropWhile_cons, if_pos (white c List.mem_cons_self)]
      exact ih fun other member => white other (List.mem_cons_of_mem c member)

/-- White space in front is trimmed away. -/
theorem trim_blank_append {blank text : List Char} (white : ∀ c ∈ blank, isWhitespace c = true) :
    trim (blank ++ text) = trim text := by
  rw [trim, dropWhile_blank white, trim]

/-- White space behind is trimmed away. -/
theorem trim_append_blank {text blank : List Char} (white : ∀ c ∈ blank, isWhitespace c = true) :
    trim (text ++ blank) = trim text := by
  have reversed : ∀ c ∈ blank.reverse, isWhitespace c = true :=
    fun c member => white c (List.mem_reverse.mp member)
  have none : blank.dropWhile isWhitespace = [] := by
    have dropped := @dropWhile_blank blank [] white
    rwa [List.append_nil] at dropped
  induction text with
  | nil => rw [List.nil_append, trim, none, trim, List.dropWhile_nil]
  | cons c text ih =>
      rw [trim, trim, List.cons_append, List.dropWhile_cons, List.dropWhile_cons]
      cases first : isWhitespace c with
      | true => exact ih
      | false =>
          simp only [Bool.false_eq_true, ↓reduceIte]
          rw [← List.cons_append, List.reverse_append, dropWhile_blank reversed]

theorem trim_of_blank {blank : List Char} (white : ∀ c ∈ blank, isWhitespace c = true) :
    trim blank = [] := by
  rw [← List.nil_append blank, trim_append_blank white]
  rfl

/-- Text that starts and ends with no white space. -/
def solidEnds (pattern : List Char) : Bool :=
  pattern.head?.all (fun c => !isWhitespace c) && pattern.getLast?.all fun c => !isWhitespace c

theorem infix_dropWhile {pattern text : List Char}
    (solid : (pattern.head?.all fun c => !isWhitespace c) = true) (found : pattern <:+: text) :
    pattern <:+: text.dropWhile isWhitespace := by
  cases pattern with
  | nil => exact List.nil_infix
  | cons c pattern =>
      induction text with
      | nil => exact found
      | cons first text ih =>
          rw [List.dropWhile_cons]
          cases blank : isWhitespace first with
          | false => exact found
          | true =>
              rcases List.infix_cons_iff.mp found with front | later
              · rw [List.head?_cons, Option.all_some, (List.cons_prefix_cons.mp front).1,
                  blank] at solid
                cases solid
              · exact ih later

/-- Trimming takes nothing from a pattern with solid ends. -/
theorem infix_trim_iff {pattern text : List Char} (solid : solidEnds pattern = true) :
    pattern <:+: trim text ↔ pattern <:+: text := by
  obtain ⟨first, last⟩ := Bool.and_eq_true_iff.mp solid
  refine ⟨fun found => found.trans (infix_of_trim text), fun found => ?_⟩
  have front := infix_dropWhile first found
  rw [trim, ← List.reverse_infix, List.reverse_reverse]
  rw [← List.reverse_infix] at front
  exact infix_dropWhile (by rwa [List.head?_reverse]) front

theorem contains_trim {pattern : List Char} (solid : solidEnds pattern = true)
    (text : List Char) : contains pattern (trim text) = contains pattern text := by
  rw [Bool.eq_iff_iff, contains_iff, contains_iff, infix_trim_iff solid]

theorem mem_trim {c : Char} {text : List Char} (solid : isWhitespace c = false)
    (member : c ∈ text) : c ∈ trim text := by
  have ends : solidEnds [c] = true := by
    rw [solidEnds, List.head?_cons, List.getLast?_singleton, Option.all_some, solid]
    rfl
  have found : [c] <:+: text := by
    obtain ⟨before, after, rfl⟩ := List.append_of_mem member
    exact ⟨before, after, by simp⟩
  exact ((infix_trim_iff ends).mpr found).subset List.mem_cons_self

/-! ## Lines and their endings -/

/-- A line of text, and whether a carriage return stands before the line feed that ends it. -/
structure Line where
  body : List Char
  crlf : Bool
  single : '\n' ∉ body

def Line.text (line : Line) : List Char :=
  line.body ++ if line.crlf then ['\r', '\n'] else ['\n']

/-- A terminated line is the first of the lines; trimmed, it is what it was. -/
theorem Line.lines_append (line : Line) (rest : List Char) :
    ∃ kept, lines (line.text ++ rest) = kept :: lines rest ∧ trim kept = trim line.body := by
  have returned : ∀ c ∈ ['\r'], isWhitespace c = true := by
    intro c member
    rw [List.mem_singleton.mp member]
    rfl
  have stripped : ∀ reversed : List Char,
      trim (dropCarriageReturn reversed).reverse = trim reversed.reverse := by
    intro reversed
    unfold dropCarriageReturn
    split
    · next kept => rw [List.reverse_cons, trim_append_blank returned]
    · rfl
  have read : ∀ body : List Char, '\n' ∉ body → trim body = trim line.body →
      line.text ++ rest = body ++ '\n' :: rest →
      ∃ kept, lines (line.text ++ rest) = kept :: lines rest ∧ trim kept = trim line.body := by
    intro body single same split
    refine ⟨_, by rw [split, lines, linesFrom_line [] single]; rfl, ?_⟩
    rw [List.append_nil, stripped, List.reverse_reverse, same]
  cases ending : line.crlf with
  | false =>
      refine read line.body line.single rfl ?_
      rw [Line.text, ending, List.append_assoc]
      rfl
  | true =>
      refine read (line.body ++ ['\r']) ?_ (trim_append_blank returned) ?_
      · rw [List.mem_append, not_or]
        exact ⟨line.single, by decide⟩
      · rw [Line.text, ending, List.append_assoc, List.append_assoc]
        rfl

private theorem linesFrom_last {line : List Char} (seen : List Char) (single : '\n' ∉ line)
    (nonempty : line.reverse ++ seen ≠ []) :
    linesFrom seen line = [(line.reverse ++ seen).reverse] := by
  induction line generalizing seen with
  | nil =>
      cases seen with
      | nil => exact absurd rfl nonempty
      | cons c seen => rfl
  | cons c line ih =>
      have other : c ≠ '\n' := fun same => single (same ▸ List.mem_cons_self)
      have later := ih (c :: seen) (fun member => single (List.mem_cons_of_mem c member))
        (by simp)
      rw [List.reverse_cons, List.append_assoc, List.singleton_append, ← later]
      cases seen <;> simp [linesFrom]

/-- A line that is not empty comes first, whether or not the text ends with it. -/
theorem lines_front {line rest : List Char} (single : '\n' ∉ line) (nonempty : line ≠ [])
    (ended : rest = [] ∨ ∃ later, rest = '\n' :: later) :
    ∃ kept later, lines (line ++ rest) = kept :: later ∧ trim kept = trim line := by
  rcases ended with rfl | ⟨later, rfl⟩
  · have last := linesFrom_last [] single (by simpa using nonempty)
    rw [List.append_nil, List.reverse_reverse] at last
    exact ⟨line, [], by rw [List.append_nil, lines, last], rfl⟩
  · obtain ⟨kept, read, same⟩ := Line.lines_append ⟨line, false, single⟩ later
    rw [Line.text, List.append_assoc] at read
    exact ⟨kept, lines later, read, same⟩

/-! ## Printing numbers -/

/-- `{:02}`, `{:04}`: decimal digits padded with zeros on the left. -/
def padDecimal (width n : Nat) : String :=
  let digits := Nat.toDigits 10 n
  String.ofList (List.replicate (width - digits.length) '0' ++ digits)

/-- `{:02x}` of a byte. -/
def hexByte (byte : UInt8) : String :=
  let digits := Nat.toDigits 16 byte.toNat
  String.ofList (List.replicate (2 - digits.length) '0' ++ digits)

/-- Decimal digits end at the first character that is none. -/
theorem toDigits_append_inj {m n : Nat} {stop : Char} (other : stop.isDigit = false)
    {left right : List Char}
    (same : Nat.toDigits 10 m ++ stop :: left = Nat.toDigits 10 n ++ stop :: right) :
    m = n ∧ left = right := by
  have digits : ∀ (k : Nat) (rest : List Char),
      (Nat.toDigits 10 k ++ stop :: rest).takeWhile Char.isDigit = Nat.toDigits 10 k := by
    intro k rest
    rw [List.takeWhile_append_of_pos
      (fun c member => Nat.isDigit_of_mem_toDigits (by decide) (by decide) member),
      List.takeWhile_cons_of_neg (by rw [other]; exact Bool.false_ne_true), List.append_nil]
  have numbers := congrArg (List.takeWhile Char.isDigit) same
  rw [digits, digits] at numbers
  have values := congrArg (Nat.ofDigitChars 10 · 0) numbers
  simp only [Nat.ofDigitChars_ten_toDigits] at values
  rw [numbers] at same
  exact ⟨values, (List.cons.inj (List.append_cancel_left same)).2⟩

end Text
