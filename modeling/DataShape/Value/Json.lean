import DataShape.Value.Display
import DataShape.Value.Order

/-! # Canonical JSON text

The JSON text of plain data with the keys of every mapping sorted. All characters outside printable
ASCII are escaped, by their UTF-16 units. Keys that are numbers, booleans or empty are written as
texts; other keys, and values that are no plain data, have no JSON text, nor have integers that are
too long to be written.

`JsonLayout` holds the separators and, if lines are broken, the text of one indentation. -/

namespace DataShape

/-- The layout of a JSON text. -/
structure JsonLayout where
  itemSeparator : String
  keySeparator : String
  /-- One level of indentation; without one, no lines are broken. -/
  indent : Option String

namespace JsonLayout

/-- No blanks at all. -/
def compact : JsonLayout := ⟨",", ":", none⟩

/-- One line with a blank after every separator. -/
def oneLine : JsonLayout := ⟨", ", ": ", none⟩

/-- One item a line. -/
def indented (unit : String) : JsonLayout := ⟨",", ": ", some unit⟩

/-- The break before an item at a depth. -/
def breakAt (l : JsonLayout) (depth : Nat) : String :=
  (l.indent.map fun unit => "\n" ++ String.join (List.replicate depth unit)).getD ""

/-- Items between brackets. -/
def enclose (l : JsonLayout) (opening closing : String) (depth : Nat) (items : List String) :
    String :=
  if items.isEmpty then opening ++ closing
  else opening ++ l.breakAt (depth + 1)
    ++ (l.itemSeparator ++ l.breakAt (depth + 1)).intercalate items
    ++ l.breakAt depth ++ closing

end JsonLayout

namespace Json

/-- An escape of one UTF-16 unit. -/
def escapeUnit (n : Nat) : List Char := ['\\', 'u'] ++ Text.hexDigits 4 n

/-- One character of a JSON text value. -/
def escapeChar (c : Char) : List Char :=
  if c == '"' || c == '\\' then ['\\', c]
  else if c == '\n' then ['\\', 'n']
  else if c == '\r' then ['\\', 'r']
  else if c == '\t' then ['\\', 't']
  else if c == '\x0c' then ['\\', 'f']
  else if c == '\x08' then ['\\', 'b']
  else if 32 ≤ c.toNat && c.toNat < 127 then [c]
  else if c.toNat < 0x10000 then escapeUnit c.toNat
  else
    let n := c.toNat - 0x10000
    escapeUnit (0xD800 + n / 0x400) ++ escapeUnit (0xDC00 + n % 0x400)

/-- A JSON text value. -/
def string (s : String) : String :=
  String.ofList ('"' :: s.toList.flatMap escapeChar ++ ['"'])

/-- A JSON number for a double. -/
def number (x : Binary64) : String :=
  match x with
  | .nan _ => "NaN"
  | .infinite negative => if negative then "-Infinity" else "Infinity"
  | x => x.toText

/-- A truth value. -/
def truth (b : Bool) : String := if b then "true" else "false"

/-- The text that stands for a key. -/
def key : Value → Except Fault String
  | .str s => .ok s
  | .null => .ok "null"
  | .bool b => .ok (truth b)
  | .int n => integerText n
  | .float x => .ok (number x)
  | _ => .error .wrongType

/-- Written entries in the order of their keys. -/
def sortEntries (entries : List (Value × String)) : Except Fault (List (Value × String)) :=
  match sortedBy? Prod.fst entries with
  | some sorted => .ok sorted
  | none => .error .wrongType

/-- One entry: its key as a JSON text, and its value. -/
def member (l : JsonLayout) (e : Value × String) : Except Fault String :=
  (key e.1).map fun k => string k ++ l.keySeparator ++ e.2

mutual

/-- The JSON text of a value at a depth. -/
def encode (l : JsonLayout) (depth : Nat) : Value → Except Fault String
  | .null => .ok "null"
  | .bool b => .ok (truth b)
  | .int n => integerText n
  | .float x => .ok (number x)
  | .str s => .ok (string s)
  | .list _ items => do return l.enclose "[" "]" depth (← encodeItems l (depth + 1) items)
  | .tuple items => do return l.enclose "[" "]" depth (← encodeItems l (depth + 1) items)
  | .dict _ entries => do
      let sorted ← sortEntries (← encodePairs l (depth + 1) entries)
      return l.enclose "\x7b" "\x7d" depth (← sorted.mapM (member l))
  | _ => .error .wrongType
termination_by structural v => v

/-- The JSON texts of items. -/
def encodeItems (l : JsonLayout) (depth : Nat) : List Value → Except Fault (List String)
  | [] => .ok []
  | v :: vs => do return (← encode l depth v) :: (← encodeItems l depth vs)
termination_by structural vs => vs

/-- The keys of entries with the JSON texts of their values. -/
def encodePairs (l : JsonLayout) (depth : Nat) :
    List (Value × Value) → Except Fault (List (Value × String))
  | [] => .ok []
  | e :: es => do return (← encodePair l depth e) :: (← encodePairs l depth es)
termination_by structural es => es

/-- The key of an entry with the JSON text of its value. -/
def encodePair (l : JsonLayout) (depth : Nat) : Value × Value → Except Fault (Value × String)
  | (k, v) => do return (k, ← encode l depth v)
termination_by structural e => e

end

/-- The JSON text of a value. -/
def text (l : JsonLayout) (v : Value) : Except Fault String := encode l 0 v

/-- A text is written as a JSON text value. -/
@[simp] theorem text_str (l : JsonLayout) (s : String) : text l (.str s) = .ok (string s) := by
  rw [text, encode]

end Json

end DataShape
