import PipeK1.Library.Text

/-!
# Hexadecimal, Base64 and Bech32

Byte strings as text. Decoding works on the UTF-8 bytes of its input, and an
error is the text of the message.
-/

set_option autoImplicit false

/-! ## Hexadecimal -/

namespace Hex

open ByteData

def digit (value : Nat) : Char := "0123456789abcdef".toList.getD value '0'

def encode (bytes : Bytes) : String :=
  String.ofList (bytes.flatMap fun byte => [digit (byte.toNat / 16), digit (byte.toNat % 16)])

def digitValue (byte : UInt8) : Option Nat :=
  let n := byte.toNat
  if 0x30 ≤ n ∧ n ≤ 0x39 then some (n - 0x30)
  else if 0x61 ≤ n ∧ n ≤ 0x66 then some (n - 0x61 + 10)
  else if 0x41 ≤ n ∧ n ≤ 0x46 then some (n - 0x41 + 10)
  else none

/-- A byte as a quoted character, control characters escaped. -/
def quoted (byte : UInt8) : String :=
  let n := byte.toNat
  let body :=
    if n = 0 then "\\0" else if n = 9 then "\\t" else if n = 10 then "\\n"
    else if n = 13 then "\\r" else if n = 39 then "\\'" else if n = 92 then "\\\\"
    else if n < 0x20 ∨ (0x7f ≤ n ∧ n < 0xa0) ∨ n = 0xad then
      "\\u\x7b" ++ String.ofList (Nat.toDigits 16 n) ++ "\x7d"
    else String.singleton (Char.ofNat n)
  "'" ++ body ++ "'"

def invalidCharacter (byte : UInt8) (index : Nat) : String :=
  "Invalid character " ++ quoted byte ++ " at position " ++ toString index

/-- Two digits to a byte; `index` is the place of the first one. -/
def decodePairs : Nat → Bytes → Except String Bytes
  | index, high :: low :: rest =>
      match digitValue high, digitValue low with
      | none, _ => .error (invalidCharacter high index)
      | some _, none => .error (invalidCharacter low (index + 1))
      | some h, some l =>
          match decodePairs (index + 2) rest with
          | .error e => .error e
          | .ok bytes => .ok (UInt8.ofNat (h * 16 + l) :: bytes)
  | _, _ => .ok []

def decode (text : String) : Except String Bytes :=
  let bytes := Text.utf8 text
  if bytes.length % 2 ≠ 0 then .error "Odd number of digits" else decodePairs 0 bytes

/-! ### Decoding what was encoded -/

theorem digit_spec : ∀ value < 16, (digit value).toNat < 128 ∧
    Text.isWhitespace (digit value) = false ∧ digit value ≠ 'n' ∧
    digitValue (UInt8.ofNat (digit value).toNat) = some value := by
  decide

theorem exists_digit {bytes : Bytes} {c : Char} (member : c ∈ (encode bytes).toList) :
    ∃ value < 16, c = digit value := by
  rw [encode, String.toList_ofList] at member
  obtain ⟨byte, _, either⟩ := List.mem_flatMap.mp member
  have small : byte.toNat < 256 := byte.toNat_lt
  simp only [List.mem_cons, List.not_mem_nil, or_false] at either
  rcases either with rfl | rfl
  · exact ⟨byte.toNat / 16, by omega, rfl⟩
  · exact ⟨byte.toNat % 16, by omega, rfl⟩

theorem utf8_encode (bytes : Bytes) :
    Text.utf8 (encode bytes) = bytes.flatMap fun byte =>
      [UInt8.ofNat (digit (byte.toNat / 16)).toNat, UInt8.ofNat (digit (byte.toNat % 16)).toNat] := by
  have ascii : ∀ c ∈ (encode bytes).toList, c.toNat < 128 := by
    intro c member
    obtain ⟨value, small, rfl⟩ := exists_digit member
    exact (digit_spec value small).1
  rw [encode, String.toList_ofList] at ascii
  rw [encode, Text.utf8_of_ascii ascii, List.map_flatMap]
  rfl

theorem decode_encode (bytes : Bytes) : decode (encode bytes) = .ok bytes := by
  have pairs : ∀ index, decodePairs index (Text.utf8 (encode bytes)) = .ok bytes := by
    rw [utf8_encode]
    induction bytes with
    | nil => exact fun _ => rfl
    | cons byte bytes ih =>
        intro index
        have small : byte.toNat < 256 := byte.toNat_lt
        have high := (digit_spec (byte.toNat / 16) (by omega)).2.2.2
        have low := (digit_spec (byte.toNat % 16) (by omega)).2.2.2
        have whole : byte.toNat / 16 * 16 + byte.toNat % 16 = byte.toNat := by omega
        rw [List.flatMap_cons, List.cons_append, List.cons_append, List.nil_append, decodePairs,
          high, low]
        simp only [ih, whole, UInt8.ofNat_toNat]
  have even : (Text.utf8 (encode bytes)).length % 2 = 0 := by
    rw [utf8_encode, List.length_flatMap]
    simp [List.map_const']
  rw [decode, if_neg (not_not.mpr even), pairs]

/-! ### What decodes -/

def isDigit (c : Char) : Bool :=
  ('0' ≤ c && c ≤ '9') || ('a' ≤ c && c ≤ 'f') || ('A' ≤ c && c ≤ 'F')

theorem isDigit_of_value {c : Char} (ascii : c.toNat < 128)
    (valued : (digitValue (UInt8.ofNat c.toNat)).isSome) : isDigit c = true := by
  have all : ∀ n < 128, (digitValue (UInt8.ofNat n)).isSome = true → isDigit (Char.ofNat n) = true := by
    decide
  have here := all c.toNat ascii valued
  rwa [Char.ofNat_toNat] at here

theorem decodePairs_digits {index : Nat} {bytes data : Bytes}
    (even : bytes.length % 2 = 0) (decoded : decodePairs index bytes = .ok data) :
    bytes.length = 2 * data.length ∧ ∀ byte ∈ bytes, (digitValue byte).isSome = true := by
  induction index, bytes using decodePairs.induct generalizing data with
  | case1 index high low rest bad =>
      simp [decodePairs, bad] at decoded
  | case2 index high low rest h bad highValue =>
      simp [decodePairs, highValue, bad] at decoded
  | case3 index high low rest h l lowValue highValue error failed ih =>
      simp [decodePairs, highValue, lowValue, failed] at decoded
  | case4 index high low rest h l lowValue highValue more found ih =>
      simp only [decodePairs, highValue, lowValue, found, Except.ok.injEq] at decoded
      subst decoded
      simp only [List.length_cons] at even
      obtain ⟨length, digits⟩ := ih (by omega) found
      refine ⟨by simp only [List.length_cons, length]; omega, fun byte member => ?_⟩
      rcases List.mem_cons.mp member with rfl | member
      · rw [highValue]
        rfl
      · rcases List.mem_cons.mp member with rfl | member
        · rw [lowValue]
          rfl
        · exact digits byte member
  | case5 bytes index short =>
      cases bytes with
      | nil =>
          simp only [decodePairs, Except.ok.injEq] at decoded
          subst decoded
          exact ⟨rfl, fun _ impossible => absurd impossible List.not_mem_nil⟩
      | cons byte bytes =>
          cases bytes with
          | nil => simp at even
          | cons other rest => exact (short byte other rest rfl).elim

/-- Only pairs of digits are decoded. -/
theorem decode_digits {text : String} {data : Bytes} (decoded : decode text = .ok data) :
    text.toList.length = 2 * data.length ∧ ∀ c ∈ text.toList, isDigit c = true := by
  unfold decode at decoded
  dsimp only at decoded
  split at decoded
  · cases decoded
  · next even =>
      obtain ⟨length, digits⟩ := decodePairs_digits (not_not.mp even) decoded
      have ascii : ∀ c ∈ text.toList, c.toNat < 128 := Text.ascii_of_utf8 fun byte member => by
        have some := digits byte member
        unfold digitValue at some
        by_contra high
        simp [show ¬ byte.toNat ≤ 0x39 by omega, show ¬ byte.toNat ≤ 0x66 by omega,
          show ¬ byte.toNat ≤ 0x46 by omega] at some
      have bytes : Text.utf8 text = text.toList.map fun c => UInt8.ofNat c.toNat := by
        rw [← Text.utf8_of_ascii ascii, String.ofList_toList]
      rw [bytes] at length digits
      refine ⟨by rwa [List.length_map] at length, fun c member => ?_⟩
      exact isDigit_of_value (ascii c member) (digits _ (List.mem_map_of_mem member))

end Hex

/-! ## Base64, the standard alphabet with padding -/

namespace Base64

open ByteData

def alphabet : List Char :=
  "ABCDEFGHIJKLMNOPQRSTUVWXYZabcdefghijklmnopqrstuvwxyz0123456789+/".toList

def symbol (value : Nat) : Char := alphabet.getD value '='

def encodeBytes : Bytes → List Char
  | [] => []
  | [a] =>
      let n := beNat [a, 0, 0]
      [symbol (n / 2 ^ 18), symbol (n / 2 ^ 12 % 64), '=', '=']
  | [a, b] =>
      let n := beNat [a, b, 0]
      [symbol (n / 2 ^ 18), symbol (n / 2 ^ 12 % 64), symbol (n / 2 ^ 6 % 64), '=']
  | a :: b :: c :: rest =>
      let n := beNat [a, b, c]
      symbol (n / 2 ^ 18) :: symbol (n / 2 ^ 12 % 64) :: symbol (n / 2 ^ 6 % 64) ::
        symbol (n % 64) :: encodeBytes rest

def encode (bytes : Bytes) : String := String.ofList (encodeBytes bytes)

def symbolValue (byte : UInt8) : Option Nat :=
  alphabet.findIdx? fun c => c.toNat = byte.toNat

def pad : UInt8 := 0x3d

def invalidByte (index : Nat) (byte : UInt8) : String :=
  "Invalid symbol " ++ toString byte.toNat ++ ", offset " ++ toString index ++ "."

/-- The symbols of the last group. `firstPad` is the place of the first padding, if any. -/
def suffixSymbols : Nat → Nat → Option Nat → Bytes → Except String (List Nat × Option Nat)
  | _, _, firstPad, [] => .ok ([], firstPad)
  | start, offset, firstPad, byte :: rest =>
      if byte = pad then
        if offset < 2 then .error (invalidByte (start + firstPad.getD offset) byte)
        else suffixSymbols start (offset + 1) (some (firstPad.getD offset)) rest
      else
        match firstPad with
        | some index => .error (invalidByte (start + index) pad)
        | none =>
            match symbolValue byte with
            | none => .error (invalidByte (start + offset) byte)
            | some value =>
                match suffixSymbols start (offset + 1) none rest with
                | .error e => .error e
                | .ok (values, firstPad) => .ok (value :: values, firstPad)

/-- The last group: at most four symbols, padding included. -/
def decodeSuffix (start : Nat) (input : Bytes) : Except String Bytes :=
  match suffixSymbols start 0 none input with
  | .error e => .error e
  | .ok (values, _) =>
      let count := values.length
      if input ≠ [] ∧ count < 2 then
        .error ("Invalid input length: " ++ toString (start + count))
      else if input.length % 4 ≠ 0 then
        .error "Invalid padding"
      else
        let n := (values ++ List.replicate (4 - count) 0).foldl (fun n value => n * 64 + value) 0
        let kept := count * 6 / 8
        if n % 2 ^ (24 - 8 * kept) ≠ 0 then
          .error ("Invalid last symbol " ++ toString (input.getD (count - 1) 0).toNat ++
            ", offset " ++ toString (start + count - 1) ++ ".")
        else
          .ok ((beList 3 n).take kept)

/-- Complete groups, all but the last without padding. -/
def decodeGroups : Nat → Bytes → Except String Bytes
  | start, a :: b :: c :: d :: e :: rest =>
      match symbolValue a, symbolValue b, symbolValue c, symbolValue d with
      | some va, some vb, some vc, some vd =>
          match decodeGroups (start + 4) (e :: rest) with
          | .error message => .error message
          | .ok bytes => .ok (beList 3 (((va * 64 + vb) * 64 + vc) * 64 + vd) ++ bytes)
      | none, _, _, _ => .error (invalidByte start a)
      | _, none, _, _ => .error (invalidByte (start + 1) b)
      | _, _, none, _ => .error (invalidByte (start + 2) c)
      | _, _, _, none => .error (invalidByte (start + 3) d)
  | start, suffix => decodeSuffix start suffix

/-- A single symbol after the last group is looked at first. -/
def decode (text : String) : Except String Bytes :=
  let bytes := Text.utf8 text
  match bytes.getLast? with
  | none => .ok []
  | some last =>
      if bytes.length % 4 = 1 ∧ last ≠ pad ∧ symbolValue last = none then
        .error (invalidByte (bytes.length - 1) last)
      else
        decodeGroups 0 bytes

/-! ### Decoding what was encoded -/

/-- A symbol as a byte of text. -/
def symbolByte (value : Nat) : UInt8 := UInt8.ofNat (symbol value).toNat

theorem symbol_spec {value : Nat} (small : value < 64) : (symbol value).toNat < 128 ∧
    symbol value ∈ alphabet ∧ symbolByte value ≠ pad ∧
    symbolValue (symbolByte value) = some value := by
  have checked : (List.range 64).all (fun value => (symbol value).toNat < 128 &&
      (alphabet.contains (symbol value) && (symbolByte value != pad &&
        symbolValue (symbolByte value) == some value))) = true := by
    decide +kernel
  simpa using List.all_eq_true.mp checked value (List.mem_range.mpr small)

theorem beNat_three_lt (a b c : UInt8) : beNat [a, b, c] < 2 ^ 24 :=
  Nat.lt_of_lt_of_eq (beNat_lt [a, b, c]) (by simp)

theorem mem_encodeBytes {bytes : Bytes} {c : Char} (member : c ∈ encodeBytes bytes) :
    c = '=' ∨ ∃ value < 64, c = symbol value := by
  induction bytes using encodeBytes.induct with
  | case1 => cases member
  | case2 a =>
      have small := beNat_three_lt a 0 0
      simp only [encodeBytes, List.mem_cons, List.not_mem_nil, or_false, or_self] at member
      rcases member with rfl | rfl | rfl
      · exact .inr ⟨_, by omega, rfl⟩
      · exact .inr ⟨_, Nat.mod_lt _ (by decide), rfl⟩
      · exact .inl rfl
  | case3 a b =>
      have small := beNat_three_lt a b 0
      simp only [encodeBytes, List.mem_cons, List.not_mem_nil, or_false] at member
      rcases member with rfl | rfl | rfl | rfl
      · exact .inr ⟨_, by omega, rfl⟩
      · exact .inr ⟨_, Nat.mod_lt _ (by decide), rfl⟩
      · exact .inr ⟨_, Nat.mod_lt _ (by decide), rfl⟩
      · exact .inl rfl
  | case4 a b d rest ih =>
      have small := beNat_three_lt a b d
      simp only [encodeBytes, List.mem_cons] at member
      rcases member with rfl | rfl | rfl | rfl | later
      · exact .inr ⟨_, by omega, rfl⟩
      · exact .inr ⟨_, Nat.mod_lt _ (by decide), rfl⟩
      · exact .inr ⟨_, Nat.mod_lt _ (by decide), rfl⟩
      · exact .inr ⟨_, Nat.mod_lt _ (by decide), rfl⟩
      · exact ih later

theorem mem_encode {bytes : Bytes} {c : Char} (member : c ∈ (encode bytes).toList) :
    c ∈ '=' :: alphabet := by
  rw [encode, String.toList_ofList] at member
  rcases mem_encodeBytes member with rfl | ⟨value, small, rfl⟩
  · exact List.mem_cons_self
  · exact List.mem_cons_of_mem _ (symbol_spec small).2.1

/-- The encoded text as bytes. -/
def encodedBytes (bytes : Bytes) : Bytes :=
  (encodeBytes bytes).map fun c => UInt8.ofNat c.toNat

theorem utf8_encode (bytes : Bytes) : Text.utf8 (encode bytes) = encodedBytes bytes := by
  refine Text.utf8_of_ascii fun c member => ?_
  rcases mem_encodeBytes member with rfl | ⟨value, small, rfl⟩
  · decide
  · exact (symbol_spec small).1

theorem length_encodedBytes (bytes : Bytes) : (encodedBytes bytes).length % 4 = 0 := by
  rw [encodedBytes, List.length_map]
  induction bytes using encodeBytes.induct with
  | case1 => simp [encodeBytes]
  | case2 a => simp [encodeBytes]
  | case3 a b => simp [encodeBytes]
  | case4 a b c rest ih =>
      simp only [encodeBytes, List.length_cons]
      omega

/-- Four symbols hold what three bytes do. -/
theorem join_digits {n : Nat} (small : n < 2 ^ 24) : ∃ first second third fourth,
    n / 2 ^ 18 = first ∧ n / 2 ^ 12 % 64 = second ∧ n / 2 ^ 6 % 64 = third ∧ n % 64 = fourth ∧
      (first < 64 ∧ second < 64 ∧ third < 64 ∧ fourth < 64) ∧
      ((first * 64 + second) * 64 + third) * 64 + fourth = n := by
  refine ⟨_, _, _, _, rfl, rfl, rfl, rfl, ?_, ?_⟩
  · omega
  · omega

theorem suffixSymbols_symbol (start offset : Nat) {value : Nat} (small : value < 64)
    (rest : Bytes) :
    suffixSymbols start offset none (symbolByte value :: rest) =
      match suffixSymbols start (offset + 1) none rest with
      | .error e => .error e
      | .ok (values, firstPad) => .ok (value :: values, firstPad) := by
  obtain ⟨_, _, plain, found⟩ := symbol_spec small
  rw [suffixSymbols, if_neg plain]
  simp only [found]

theorem decodeSuffix_encodedBytes (start : Nat) :
    (∀ a b c : UInt8, decodeSuffix start (encodedBytes [a, b, c]) = .ok [a, b, c]) ∧
    (∀ a b : UInt8, decodeSuffix start (encodedBytes [a, b]) = .ok [a, b]) ∧
    ∀ a : UInt8, decodeSuffix start (encodedBytes [a]) = .ok [a] := by
  have back : ∀ a b c : UInt8, beList 3 (beNat [a, b, c]) = [a, b, c] :=
    fun a b c => beList_beNat [a, b, c]
  refine ⟨fun a b c => ?_, fun a b => ?_, fun a => ?_⟩
  · obtain ⟨first, second, third, fourth, one, two, three, four, small, whole⟩ :=
      join_digits (beNat_three_lt a b c)
    change decodeSuffix start [symbolByte (beNat [a, b, c] / 2 ^ 18),
      symbolByte (beNat [a, b, c] / 2 ^ 12 % 64), symbolByte (beNat [a, b, c] / 2 ^ 6 % 64),
      symbolByte (beNat [a, b, c] % 64)] = _
    rw [one, two, three, four, decodeSuffix, suffixSymbols_symbol _ _ small.1,
      suffixSymbols_symbol _ _ small.2.1, suffixSymbols_symbol _ _ small.2.2.1,
      suffixSymbols_symbol _ _ small.2.2.2]
    simp [suffixSymbols, whole, back, Nat.mod_one]
  · obtain ⟨first, second, third, fourth, one, two, three, four, small, whole⟩ :=
      join_digits (beNat_three_lt a b 0)
    have last : beNat [a, b, 0] % 256 = 0 := by
      simp only [beNat, List.foldl_cons, List.foldl_nil, UInt8.toNat_zero]
      omega
    have zero : fourth = 0 := by omega
    rw [zero, Nat.add_zero] at whole
    change decodeSuffix start [symbolByte (beNat [a, b, 0] / 2 ^ 18),
      symbolByte (beNat [a, b, 0] / 2 ^ 12 % 64), symbolByte (beNat [a, b, 0] / 2 ^ 6 % 64),
      pad] = _
    rw [one, two, three, decodeSuffix, suffixSymbols_symbol _ _ small.1,
      suffixSymbols_symbol _ _ small.2.1, suffixSymbols_symbol _ _ small.2.2.1]
    simp [suffixSymbols, whole, back, last]
  · obtain ⟨first, second, third, fourth, one, two, three, four, small, whole⟩ :=
      join_digits (beNat_three_lt a 0 0)
    have last : beNat [a, 0, 0] % 65536 = 0 := by
      simp only [beNat, List.foldl_cons, List.foldl_nil, UInt8.toNat_zero]
      omega
    have zero : fourth = 0 := by omega
    have zero' : third = 0 := by omega
    rw [zero, zero', Nat.add_zero, Nat.add_zero] at whole
    change decodeSuffix start [symbolByte (beNat [a, 0, 0] / 2 ^ 18),
      symbolByte (beNat [a, 0, 0] / 2 ^ 12 % 64), pad, pad] = _
    rw [one, two, decodeSuffix, suffixSymbols_symbol _ _ small.1,
      suffixSymbols_symbol _ _ small.2.1]
    simp [suffixSymbols, whole, back, last]

theorem decodeGroups_encodedBytes (bytes : Bytes) (start : Nat) :
    decodeGroups start (encodedBytes bytes) = .ok bytes := by
  induction bytes using encodeBytes.induct generalizing start with
  | case1 => rfl
  | case2 a => exact (decodeSuffix_encodedBytes start).2.2 a
  | case3 a b => exact (decodeSuffix_encodedBytes start).2.1 a b
  | case4 a b c rest ih =>
      cases later : encodedBytes rest with
      | nil =>
          have none : rest = [] := by
            match rest, later with
            | [], _ => rfl
            | [_], impossible => cases impossible
            | [_, _], impossible => cases impossible
            | _ :: _ :: _ :: _, impossible => cases impossible
          rw [none]
          exact (decodeSuffix_encodedBytes start).1 a b c
      | cons e tail =>
          obtain ⟨first, second, third, fourth, one, two, three, four, small, whole⟩ :=
            join_digits (beNat_three_lt a b c)
          have digit : ∀ value < 64, symbolValue (symbolByte value) = some value :=
            fun value small => (symbol_spec small).2.2.2
          have split : encodedBytes (a :: b :: c :: rest) =
              symbolByte first :: symbolByte second :: symbolByte third :: symbolByte fourth ::
              e :: tail := by
            rw [← later, ← one, ← two, ← three, ← four]
            rfl
          have decoded := ih (start + 4)
          rw [later] at decoded
          rw [split, decodeGroups]
          simp only [digit _ small.1, digit _ small.2.1, digit _ small.2.2.1, digit _ small.2.2.2,
            decoded]
          rw [whole]
          exact congrArg (fun early => Except.ok (early ++ rest)) (beList_beNat [a, b, c])

theorem decode_encode (bytes : Bytes) : decode (encode bytes) = .ok bytes := by
  have groups := decodeGroups_encodedBytes bytes 0
  have width := length_encodedBytes bytes
  simp only [decode, utf8_encode]
  cases last : (encodedBytes bytes).getLast? with
  | none =>
      rw [List.getLast?_eq_none_iff.mp last] at groups
      exact groups
  | some byte =>
      have aligned : ¬ ((encodedBytes bytes).length % 4 = 1 ∧ byte ≠ pad ∧
          symbolValue byte = none) := by
        omega
      simp only [aligned, ↓reduceIte, groups]

end Base64

/-! ## Bech32 -/

namespace Bech32

open ByteData

def alphabet : List Char := "qpzry9x8gf2tvdw0s3jn54khce6mua7l".toList

/-- The checksum polynomial over 5-bit values. -/
def polymod (values : List Nat) : Nat :=
  values.foldl (fun chk value =>
    let top := chk >>> 25
    let shifted := ((chk &&& 0x1ffffff) <<< 5) ^^^ value
    ([0x3b6a57b2, 0x26508e6d, 0x1ea119fa, 0x3d4233dd, 0x2a1462b3].zipIdx).foldl
      (fun chk (generator, i) => if (top >>> i) &&& 1 = 1 then chk ^^^ generator else chk)
      shifted) 1

/-- The human-readable part as the checksum covers it. -/
def expandHrp (hrp : List Char) : List Nat :=
  hrp.map (fun c => c.toNat >>> 5) ++ [0] ++ hrp.map (fun c => c.toNat &&& 31)

/-- The five-bit digits of `count` bits of `value`, the last one filled up with zeros. -/
def fiveBits (bytes : Bytes) : List Nat :=
  let count := (8 * bytes.length + 4) / 5
  let value := beNat bytes * 2 ^ (5 * count - 8 * bytes.length)
  (List.range count).map fun i => value / 2 ^ (5 * (count - 1 - i)) % 32

def checksum (hrp : List Char) (data : List Nat) : List Nat :=
  let residue := polymod (expandHrp hrp ++ data ++ List.replicate 6 0) ^^^ 1
  (List.range 6).map fun i => (residue >>> (5 * (5 - i))) &&& 31

def encode (hrp : String) (bytes : Bytes) : String :=
  let data := fiveBits bytes
  hrp ++ "1" ++ String.ofList ((data ++ checksum hrp.toList data).map fun value =>
    alphabet.getD value 'q')

def isUpper (c : Char) : Bool := 'A' ≤ c ∧ c ≤ 'Z'

def isLower (c : Char) : Bool := 'a' ≤ c ∧ c ≤ 'z'

def toLower (c : Char) : Char := if isUpper c then Char.ofNat (c.toNat + 32) else c

/-- The human-readable part and what follows the last separator. -/
def splitLast (text : List Char) : Option (List Char × List Char) :=
  let after := text.reverse.takeWhile (· ≠ '1')
  if after.length < text.length then
    some (text.take (text.length - after.length - 1), after.reverse)
  else none

/-- Whole bytes; fewer than eight bits are left over. -/
def bytesOf (data : List Nat) : Bytes :=
  let value := data.foldl (fun value digit => value * 32 + digit) 0
  let count := 5 * data.length / 8
  beList count (value / 2 ^ (5 * data.length - 8 * count))

/-- Both checksums, Bech32 and Bech32m, are accepted. -/
def decode (text : String) : Except String (String × Bytes) :=
  match splitLast text.toList with
  | none => .error "parsing failed"
  | some (hrp, symbols) =>
      let chars := text.toList
      let readable := hrp.all fun c => 33 ≤ c.toNat ∧ c.toNat ≤ 126
      let mixed := chars.any isUpper && chars.any isLower
      match (symbols.map toLower).mapM fun c => alphabet.findIdx? (· = c) with
      | none => .error "parsing failed"
      | some values =>
          if hrp = [] ∨ 83 < hrp.length ∨ readable = false ∨ mixed = true then
            .error "parsing failed"
          else
            let residue := polymod (expandHrp (hrp.map toLower) ++ values)
            if values.length < 6 ∨ 1023 < chars.length ∨
                (residue ≠ 1 ∧ residue ≠ 0x2bc830a3) then
              .error "checksum failed"
            else
              .ok (String.ofList hrp, bytesOf (values.take (values.length - 6)))

end Bech32
