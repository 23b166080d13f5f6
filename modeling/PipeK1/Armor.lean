import PipeK1.Signature

/-!
# Armored signature files

The layouts of an armored file, and what the line filter keeps of them.
-/

set_option autoImplicit false

namespace PipeK1

open ByteData

/-! ## Markers -/

/-- Trimming a line shows the reader neither more nor fewer markers. -/
theorem beginsArmor_trim (line : List Char) : beginsArmor (Text.trim line) = beginsArmor line := by
  rw [beginsArmor, beginsArmor, Text.contains_trim (by decide), Text.contains_trim (by decide),
    Text.contains_trim (by decide)]

theorem endsArmor_trim (line : List Char) : endsArmor (Text.trim line) = endsArmor line := by
  rw [endsArmor, endsArmor, Text.contains_trim (by decide), Text.contains_trim (by decide),
    Text.contains_trim (by decide)]

theorem beginsArmor_of_infix {part text : List Char} (inside : part <:+: text)
    (begins : beginsArmor part = true) : beginsArmor text = true := by
  simp only [beginsArmor, Bool.or_eq_true, Text.contains_iff] at begins ⊢
  rcases begins with (pgp | dashed) | plain
  · exact .inl (.inl (pgp.trans inside))
  · exact .inl (.inr (dashed.trans inside))
  · exact .inr (plain.trans inside)

/-- A text with a line that begins armor is armored. -/
theorem isArmored_of_infix {part text : List Char} (inside : part <:+: text)
    (begins : beginsArmor part = true) : isArmored text = true := by
  have whole := beginsArmor_of_infix inside begins
  have named : Text.contains "SIGNATURE".toList text = true := by
    rw [Text.contains_iff]
    simp only [beginsArmor, Bool.or_eq_true, Text.contains_iff] at whole
    rcases whole with (pgp | dashed) | plain
    · exact List.IsInfix.trans (by decide) pgp
    · exact List.IsInfix.trans (by decide) dashed
    · exact List.IsInfix.trans (by decide) plain
  rw [isArmored, named, whole]
  rfl

/-- None of the six markers. -/
structure Unmarked (line : List Char) : Prop where
  begins : beginsArmor line = false
  ends : endsArmor line = false

theorem Unmarked.of_solid {line : List Char} (solid : ' ' ∉ line) : Unmarked line := by
  have absent : ∀ pattern : String, ' ' ∈ pattern.toList →
      Text.contains pattern.toList line = false :=
    fun pattern member => Text.contains_eq_false member solid
  constructor
  · simp only [beginsArmor, absent "BEGIN PGP SIGNATURE" (by decide),
      absent "BEGIN PIPE-K1 SIGNATURE" (by decide), absent "BEGIN PIPEK1 SIGNATURE" (by decide),
      Bool.or_self]
  · simp only [endsArmor, absent "END PGP SIGNATURE" (by decide),
      absent "END PIPE-K1 SIGNATURE" (by decide), absent "END PIPEK1 SIGNATURE" (by decide),
      Bool.or_self]

/-! ## The filter, line by line -/

section Filter

variable {kept line : List Char} {later : List (List Char)} {capture : Bool}
  (same : Text.trim kept = Text.trim line)
include same

theorem armorBody_of_begins (begins : beginsArmor line = true) :
    armorBody capture (kept :: later) = armorBody true later := by
  rw [armorBody, same, beginsArmor_trim, begins]
  rfl

theorem armorBody_of_ends (begins : beginsArmor line = false) (ends : endsArmor line = true) :
    armorBody capture (kept :: later) = [] := by
  rw [armorBody, same, beginsArmor_trim, begins, endsArmor_trim, ends]
  rfl

theorem armorBody_before (unmarked : Unmarked line) :
    armorBody false (kept :: later) = armorBody false later := by
  rw [armorBody, same, beginsArmor_trim, unmarked.begins, endsArmor_trim, unmarked.ends]
  rfl

/-- A line with a colon in it, or with nothing but white space, is left out. -/
theorem armorBody_of_header (unmarked : Unmarked line)
    (skipped : ':' ∈ line ∨ ∀ c ∈ line, Text.isWhitespace c = true) :
    armorBody capture (kept :: later) = armorBody capture later := by
  rw [armorBody, same, beginsArmor_trim, unmarked.begins, endsArmor_trim, unmarked.ends]
  rcases skipped with colon | blank
  · have found : (Text.trim line).contains ':' = true :=
      List.contains_iff_mem.mpr (Text.mem_trim (by decide) colon)
    simp only [found, Bool.not_true, Bool.and_false, Bool.false_eq_true, ↓reduceIte]
  · simp only [Text.trim_of_blank blank, List.isEmpty_nil, Bool.not_true, Bool.and_false,
      Bool.false_and, Bool.false_eq_true, ↓reduceIte]

/-- A piece of the Base64 text is kept. -/
theorem armorBody_of_piece {piece : List Char} (trimmed : Text.trim line = piece)
    (unmarked : Unmarked line) (colon : ':' ∉ piece) :
    armorBody true (kept :: later) = piece ++ armorBody true later := by
  have plain : piece.contains ':' = false := by
    rw [Bool.eq_false_iff, ne_eq, List.contains_iff_mem]
    exact colon
  rw [armorBody, same, beginsArmor_trim, unmarked.begins, endsArmor_trim, unmarked.ends, trimmed]
  simp only [plain, Bool.not_false, Bool.and_true, Bool.true_and, Bool.false_eq_true, ↓reduceIte]
  cases piece with
  | nil => rfl
  | cons c piece => rfl

end Filter

/-! ## Layouts -/

/-- A line with a piece of text in it, white space on either side. -/
structure PaddedPiece where
  before : List Char
  piece : List Char
  after : List Char
  crlf : Bool
  blank : ∀ c ∈ before ++ after, Text.isWhitespace c = true
  single : '\n' ∉ before ++ (piece ++ after)

def PaddedPiece.line (padded : PaddedPiece) : Text.Line where
  body := padded.before ++ (padded.piece ++ padded.after)
  crlf := padded.crlf
  single := padded.single

theorem PaddedPiece.trim_line (padded : PaddedPiece)
    (solid : ∀ c ∈ padded.piece, Text.isWhitespace c = false) :
    Text.trim padded.line.body = padded.piece := by
  rw [line, Text.trim_blank_append fun c member => padded.blank c (List.mem_append_left _ member),
    Text.trim_append_blank fun c member => padded.blank c (List.mem_append_right _ member),
    Text.trim_of_solid solid]

/-- An armored file around a Base64 text. -/
structure ArmoredFile (encoded : List Char) where
  preamble : List Text.Line
  opening : Text.Line
  headers : List Text.Line
  pieces : List PaddedPiece
  closing : List Char
  rest : List Char
  outside : ∀ line ∈ preamble, Unmarked line.body
  opens : beginsArmor opening.body = true
  unmarked : ∀ line ∈ headers, Unmarked line.body
  skipped : ∀ line ∈ headers, ':' ∈ line.body ∨ ∀ c ∈ line.body, Text.isWhitespace c = true
  cut : pieces.flatMap PaddedPiece.piece = encoded
  closes : endsArmor closing = true
  single : '\n' ∉ closing
  ended : rest = [] ∨ ∃ later, rest = '\n' :: later

namespace ArmoredFile

variable {encoded : List Char}

def text (file : ArmoredFile encoded) : List Char :=
  file.preamble.flatMap Text.Line.text ++ (file.opening.text ++
    (file.headers.flatMap Text.Line.text ++ (file.pieces.flatMap (fun padded => padded.line.text) ++
      (file.closing ++ file.rest))))

theorem armorBody_preamble {before : List Text.Line} (outside : ∀ line ∈ before, Unmarked line.body)
    (rest : List Char) :
    armorBody false (Text.lines (before.flatMap Text.Line.text ++ rest)) =
      armorBody false (Text.lines rest) := by
  induction before with
  | nil => rfl
  | cons line before ih =>
      have later := ih fun other member => outside other (List.mem_cons_of_mem line member)
      obtain ⟨kept, read, same⟩ := line.lines_append (before.flatMap Text.Line.text ++ rest)
      rw [List.flatMap_cons, List.append_assoc, read,
        armorBody_before same (outside line List.mem_cons_self), later]

theorem armorBody_headers {headers : List Text.Line}
    (unmarked : ∀ line ∈ headers, Unmarked line.body)
    (skipped : ∀ line ∈ headers, ':' ∈ line.body ∨ ∀ c ∈ line.body, Text.isWhitespace c = true)
    (rest : List Char) :
    armorBody true (Text.lines (headers.flatMap Text.Line.text ++ rest)) =
      armorBody true (Text.lines rest) := by
  induction headers with
  | nil => rfl
  | cons line headers ih =>
      have later := ih (fun other member => unmarked other (List.mem_cons_of_mem line member))
        fun other member => skipped other (List.mem_cons_of_mem line member)
      obtain ⟨kept, read, same⟩ := line.lines_append (headers.flatMap Text.Line.text ++ rest)
      rw [List.flatMap_cons, List.append_assoc, read, armorBody_of_header same
        (unmarked line List.mem_cons_self) (skipped line List.mem_cons_self), later]

/-- The characters of a Base64 text are neither white space nor colons. -/
def Symbols (text : List Char) : Prop :=
  ∀ c ∈ text, Text.isWhitespace c = false ∧ c ≠ ':'

theorem armorBody_pieces {pieces : List PaddedPiece}
    (symbols : Symbols (pieces.flatMap PaddedPiece.piece)) (rest : List Char) :
    armorBody true (Text.lines (pieces.flatMap (fun padded => padded.line.text) ++ rest)) =
      pieces.flatMap PaddedPiece.piece ++ armorBody true (Text.lines rest) := by
  induction pieces with
  | nil => rfl
  | cons padded pieces ih =>
      rw [List.flatMap_cons] at symbols
      have solid : Symbols padded.piece :=
        fun c member => symbols c (List.mem_append_left _ member)
      have later := ih fun c member => symbols c (List.mem_append_right _ member)
      have trimmed := padded.trim_line fun c member => (solid c member).1
      have unmarked : Unmarked padded.line.body := by
        have inside : Unmarked (Text.trim padded.line.body) := by
          rw [trimmed]
          refine .of_solid fun blank => ?_
          have impossible := (solid ' ' blank).1
          cases impossible
        exact ⟨beginsArmor_trim _ ▸ inside.begins, endsArmor_trim _ ▸ inside.ends⟩
      obtain ⟨kept, read, same⟩ :=
        padded.line.lines_append (pieces.flatMap (fun padded => padded.line.text) ++ rest)
      rw [List.flatMap_cons, List.append_assoc, read, armorBody_of_piece same trimmed unmarked
        fun colon => (solid ':' colon).2 rfl, later, List.flatMap_cons, List.append_assoc]

/-- The filter keeps the Base64 text, and what it keeps from the closing line on. -/
theorem armorBody_text_eq (file : ArmoredFile encoded) (symbols : Symbols encoded) :
    armorBody false (Text.lines file.text) =
      encoded ++ armorBody true (Text.lines (file.closing ++ file.rest)) := by
  have cut := file.cut
  rw [← cut] at symbols
  obtain ⟨kept, read, same⟩ := file.opening.lines_append
    (file.headers.flatMap Text.Line.text ++ (file.pieces.flatMap (fun padded => padded.line.text) ++
      (file.closing ++ file.rest)))
  rw [text, armorBody_preamble file.outside, read, armorBody_of_begins same file.opens,
    armorBody_headers file.unmarked file.skipped, armorBody_pieces symbols, cut]

/-- That is nothing, unless the closing line begins armor again. -/
theorem armorBody_closing (file : ArmoredFile encoded)
    (distinct : beginsArmor file.closing = false) :
    armorBody true (Text.lines (file.closing ++ file.rest)) = [] := by
  have nonempty : file.closing ≠ [] := by
    intro empty
    have closes := file.closes
    rw [empty] at closes
    exact absurd closes (by decide)
  obtain ⟨kept, later, read, same⟩ := Text.lines_front file.single nonempty file.ended
  rw [read, armorBody_of_ends same distinct file.closes]

theorem isArmored_text (file : ArmoredFile encoded) : isArmored file.text = true := by
  have inside : file.opening.body <:+: file.text := by
    have line : file.opening.body <+: file.opening.text := List.prefix_append _ _
    exact line.isInfix.trans ⟨file.preamble.flatMap Text.Line.text, _, List.append_assoc _ _ _⟩
  exact isArmored_of_infix inside file.opens

end ArmoredFile

/-! ## Reading a file -/

section Reading

variable {crates : Crates}

theorem detachArmor_text {encoded : List Char} (file : ArmoredFile encoded) :
    detachArmor crates (Text.utf8 (String.ofList file.text)) =
      match crates.encodings.base64Decode
          (String.ofList (armorBody false (Text.lines file.text))) with
      | .error e => .error (.wireCorruption ("Base64 decode error: " ++ e))
      | .ok bytes => .ok bytes := by
  rw [detachArmor, Text.fromUtf8_utf8, String.toList_ofList]
  exact if_pos file.isArmored_text

/-- An armored file is read as what its Base64 text decodes to. -/
theorem detachArmor_armored {encoded : List Char} (file : ArmoredFile encoded)
    (symbols : ArmoredFile.Symbols encoded) (distinct : beginsArmor file.closing = false)
    {bytes : Bytes} (decodes : crates.encodings.base64Decode (String.ofList encoded) = .ok bytes) :
    detachArmor crates (Text.utf8 (String.ofList file.text)) = .ok bytes := by
  rw [detachArmor_text, file.armorBody_text_eq symbols, file.armorBody_closing distinct,
    List.append_nil, decodes]

/-- Bytes in which no armor begins are the signature themselves. -/
theorem detachArmor_raw {bytes : Bytes}
    (unmarked : ∀ text, Text.fromUtf8 bytes = some text → beginsArmor text = false) :
    detachArmor crates bytes = .ok bytes := by
  unfold detachArmor
  cases decoded : Text.fromUtf8 bytes with
  | none => rfl
  | some text =>
      have plain : isArmored text = false := by
        rw [isArmored, unmarked text decoded, Bool.and_false]
      simp only [plain, Bool.false_eq_true, ↓reduceIte]

end Reading

end PipeK1
