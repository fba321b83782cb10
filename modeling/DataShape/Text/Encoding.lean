import DataShape.Text.Quoted
import DataShape.Text.Split

/-! # Text encodings

How bytes spell a text. The bytes are read piece by piece: a piece is a character, or as many bytes
as cannot begin one. What becomes of broken pieces is a choice: the text is refused, or they are
left out, marked, or written by their numbers.

* `Encoding.named?` — the encoding of a name; letter case and the signs between words do not count.
* `pieces` — bytes cut into pieces; no byte is lost (`sum_width_pieces`).
* `Encoding.decode` — the text that bytes spell. -/

namespace DataShape.Text

/-! ## Names -/

/-- Which byte of a unit comes first. -/
inductive ByteOrder where
  | little | big
deriving DecidableEq, Repr

/-- How bytes spell a text. Where units have no given order, a mark at the start tells it. -/
inductive Encoding where
  | ascii
  | latin
  /-- Latin with punctuation in the place of the upper control characters. -/
  | western
  /-- Units of eight bits; a mark at the start may be part of the form and not of the text. -/
  | utf8 (marked : Bool)
  | utf16 (order : Option ByteOrder)
  | utf32 (order : Option ByteOrder)
deriving DecidableEq, Repr

/-- The names of the encodings. -/
def encodingNames : List (Encoding × List String) :=
  [(.ascii, ["ascii", "646", "ansi_x3.4_1968", "ansi_x3_4_1968", "ansi_x3.4_1986", "cp367",
      "csascii", "ibm367", "iso646_us", "iso_646.irv_1991", "iso_ir_6", "us", "us_ascii"]),
   (.latin, ["latin_1", "latin1", "latin", "l1", "8859", "cp819", "csisolatin1", "ibm819",
      "iso8859", "iso8859_1", "iso_8859_1", "iso_8859_1_1987", "iso_ir_100"]),
   (.western, ["cp1252", "1252", "windows_1252"]),
   (.utf8 false, ["utf_8", "utf8", "u8", "utf", "utf8_ucs2", "utf8_ucs4", "cp65001"]),
   (.utf8 true, ["utf_8_sig"]),
   (.utf16 none, ["utf_16", "utf16", "u16"]),
   (.utf16 (some .big), ["utf_16_be", "utf_16be", "unicodebigunmarked"]),
   (.utf16 (some .little), ["utf_16_le", "utf_16le", "unicodelittleunmarked"]),
   (.utf32 none, ["utf_32", "utf32", "u32"]),
   (.utf32 (some .big), ["utf_32_be", "utf_32be"]),
   (.utf32 (some .little), ["utf_32_le", "utf_32le"])]

/-- A name in small letters, with one underscore for whatever stands between its words. -/
def plainName (name : String) : String :=
  let plain := name.map fun c => if c.isAlphanum || c == '.' then c.toLower else '_'
  "_".intercalate ((splitText '_' plain).filter (!·.isEmpty))

/-- The encoding of a name. -/
def Encoding.named? (name : String) : Option Encoding :=
  (encodingNames.find? fun e => e.2.contains (plainName name)).map (·.1)

/-! ## Pieces -/

/-- What bytes begin with. -/
inductive Piece where
  /-- A character that so many bytes spell. -/
  | char (c : Char) (width : Nat)
  /-- Bytes that spell none. -/
  | broken (bytes : List UInt8)

/-- How many bytes a piece takes. -/
def Piece.width : Piece → Nat
  | .char _ width => width
  | .broken bytes => bytes.length

/-- Bytes cut into pieces, given what bytes begin with. A piece takes at least one byte. -/
def pieces (first : List UInt8 → Piece) : List UInt8 → List Piece
  | [] => []
  | b :: rest =>
      let piece := first (b :: rest)
      piece :: pieces first (rest.drop (piece.width - 1))
termination_by bytes => bytes.length
decreasing_by simp only [List.length_drop, List.length_cons]; omega

/-- No byte is lost: the pieces take all bytes, if each takes at least one and no more than there
are. -/
theorem sum_width_pieces {first : List UInt8 → Piece}
    (fits : ∀ b rest, 1 ≤ (first (b :: rest)).width ∧ (first (b :: rest)).width ≤ rest.length + 1)
    (bytes : List UInt8) :
    ((pieces first bytes).map Piece.width).foldr (· + ·) 0 = bytes.length := by
  fun_induction pieces first bytes with
  | case1 => rfl
  | case2 b rest piece ih =>
    have h : 1 ≤ piece.width ∧ piece.width ≤ rest.length + 1 := fits b rest
    rw [List.map_cons, List.foldr_cons, ih, List.length_drop, List.length_cons]
    omega

/-! ## Single bytes -/

/-- The character of a byte of ASCII. -/
def asciiFirst : List UInt8 → Piece
  | [] => .broken []
  | b :: _ => if b < 0x80 then .char (Char.ofNat b.toNat) 1 else .broken [b]

/-- The character of a byte of Latin. -/
def latinFirst : List UInt8 → Piece
  | [] => .broken []
  | b :: _ => .char (Char.ofNat b.toNat) 1

/-- The punctuation in the place of the upper control characters; a blank stands where there is
none. -/
def westernMarks : List Char := "€ ‚ƒ„…†‡ˆ‰Š‹Œ Ž  ‘’“”•–—˜™š›œ žŸ".toList

/-- The character of a byte of Latin with punctuation. -/
def westernFirst : List UInt8 → Piece
  | [] => .broken []
  | b :: _ =>
      if b < 0x80 || 0xA0 ≤ b then .char (Char.ofNat b.toNat) 1
      else match westernMarks[b.toNat - 0x80]? with
        | none | some ' ' => .broken [b]
        | some c => .char c 1

/-! ## Units of eight bits -/

/-- What the first byte of a character tells: how many bytes follow, and between which bounds the
first of them lies. -/
def followers (lead : Nat) : Option (Nat × Nat × Nat) :=
  if lead < 0xC2 then none
  else if lead < 0xE0 then some (1, 0x80, 0xBF)
  else if lead = 0xE0 then some (2, 0xA0, 0xBF)
  else if lead = 0xED then some (2, 0x80, 0x9F)
  else if lead < 0xF0 then some (2, 0x80, 0xBF)
  else if lead = 0xF0 then some (3, 0x90, 0xBF)
  else if lead < 0xF4 then some (3, 0x80, 0xBF)
  else if lead = 0xF4 then some (3, 0x80, 0x8F)
  else none

/-- The bytes that go on with a character: at most so many, the first between two bounds. -/
def following : Nat → Nat → Nat → List UInt8 → List UInt8
  | count + 1, low, high, b :: rest =>
      if low ≤ b.toNat ∧ b.toNat ≤ high then b :: following count 0x80 0xBF rest else []
  | _, _, _, _ => []

/-- The value bits of the first byte of a character with so many bytes behind it. -/
def leadBits (lead count : Nat) : Nat := lead % Nat.pow 2 (6 - count)

/-- The character at the head of bytes of eight-bit units. -/
def utf8First : List UInt8 → Piece
  | [] => .broken []
  | b :: rest =>
      if b < 0x80 then .char (Char.ofNat b.toNat) 1
      else match followers b.toNat with
        | none => .broken [b]
        | some (count, low, high) =>
            let tail := following count low high rest
            if tail.length = count then
              let code := tail.foldl (fun n t => n * 64 + t.toNat % 64) (leadBits b.toNat count)
              .char (Char.ofNat code) (count + 1)
            else .broken (b :: tail)

/-! ## Wider units -/

/-- The number of a unit. -/
def unitNumber (order : ByteOrder) (bytes : List UInt8) : Nat :=
  let ordered := match order with
    | .little => bytes.reverse
    | .big => bytes
  ordered.foldl (fun n b => n * 256 + b.toNat) 0

/-- Whether a number is the first half of a pair. -/
def isHighHalf (n : Nat) : Bool := 0xD800 ≤ n && n < 0xDC00

/-- Whether a number is the second half of a pair. -/
def isLowHalf (n : Nat) : Bool := 0xDC00 ≤ n && n < 0xE000

/-- The character of a pair of halves. -/
def pairChar (high low : Nat) : Char :=
  Char.ofNat (0x10000 + (high - 0xD800) * 0x400 + (low - 0xDC00))

/-- The character at the head of bytes of sixteen-bit units. -/
def utf16First (order : ByteOrder) : List UInt8 → Piece
  | a :: b :: rest =>
      let unit := unitNumber order [a, b]
      if isLowHalf unit then .broken [a, b]
      else if isHighHalf unit then match rest with
        | c :: d :: _ =>
            let next := unitNumber order [c, d]
            if isLowHalf next then .char (pairChar unit next) 4 else .broken [a, b]
        | short => .broken (a :: b :: short)
      else .char (Char.ofNat unit) 2
  | short => .broken short

/-- The character at the head of bytes of thirty-two-bit units. -/
def utf32First (order : ByteOrder) : List UInt8 → Piece
  | a :: b :: c :: d :: _ =>
      let code := unitNumber order [a, b, c, d]
      if h : code.isValidChar then .char (Char.ofNatAux code h) 4 else .broken [a, b, c, d]
  | short => .broken short

/-! ## Reading -/

/-- The order that a mark at the start tells, and the bytes behind the mark. -/
def markedOrder (little big : List UInt8) (bytes : List UInt8) : ByteOrder × List UInt8 :=
  if little.isPrefixOf bytes then (.little, bytes.drop little.length)
  else if big.isPrefixOf bytes then (.big, bytes.drop big.length)
  else (.little, bytes)

/-- The bytes of a text as pieces. -/
def Encoding.piecesOf (e : Encoding) (bytes : List UInt8) : List Piece :=
  match e with
  | .ascii => pieces asciiFirst bytes
  | .latin => pieces latinFirst bytes
  | .western => pieces westernFirst bytes
  | .utf8 marked =>
      let mark := [0xEF, 0xBB, 0xBF]
      pieces utf8First (if marked && mark.isPrefixOf bytes then bytes.drop mark.length else bytes)
  | .utf16 (some order) => pieces (utf16First order) bytes
  | .utf16 none =>
      let r := markedOrder [0xFF, 0xFE] [0xFE, 0xFF] bytes
      pieces (utf16First r.1) r.2
  | .utf32 (some order) => pieces (utf32First order) bytes
  | .utf32 none =>
      let r := markedOrder [0xFF, 0xFE, 0, 0] [0, 0, 0xFE, 0xFF] bytes
      pieces (utf32First r.1) r.2

/-- Why bytes spell no text. -/
inductive DecodingFault where
  /-- A piece is broken. -/
  | broken
  /-- A piece is broken, and what should become of it has no known name. -/
  | unknownRepair
  /-- A piece is broken, and what should become of it fits only characters. -/
  | unfitRepair
deriving DecidableEq, Repr

/-- A byte by its number. -/
def byteEscape (b : UInt8) : List Char := ['\\', 'x'] ++ hexDigits 2 b.toNat

/-- What becomes of a broken piece. -/
def repaired (repair : String) (bytes : List UInt8) : Except DecodingFault (List Char) :=
  match repair with
  | "ignore" => .ok []
  | "replace" => .ok ['\ufffd']
  | "backslashreplace" => .ok (bytes.flatMap byteEscape)
  | "strict" | "surrogateescape" | "surrogatepass" => .error .broken
  | "xmlcharrefreplace" | "namereplace" => .error .unfitRepair
  | _ => .error .unknownRepair

/-- The characters of a piece. -/
def Piece.chars (repair : String) : Piece → Except DecodingFault (List Char)
  | .char c _ => .ok [c]
  | .broken bytes => repaired repair bytes

/-- The text that bytes spell. -/
def Encoding.decode (e : Encoding) (repair : String) (bytes : List UInt8) :
    Except DecodingFault String :=
  ((e.piecesOf bytes).mapM (Piece.chars repair)).map fun parts => String.ofList parts.flatten

/-- In Latin every byte spells the character of its number. -/
theorem piecesOf_latin (bytes : List UInt8) :
    Encoding.latin.piecesOf bytes = bytes.map fun b => .char (Char.ofNat b.toNat) 1 := by
  simp only [Encoding.piecesOf]
  induction bytes with
  | nil => rw [pieces, List.map_nil]
  | cons b rest ih =>
    rw [pieces]
    simpa [latinFirst, Piece.width] using ih

/-- No bytes spell no text. -/
theorem pieces_nil (first : List UInt8 → Piece) : pieces first [] = [] := by rw [pieces]

end DataShape.Text
