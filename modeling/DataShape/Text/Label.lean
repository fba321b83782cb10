import DataShape.Text.Digit

/-! # Labels from names

A display label is made from a name by cutting the name into words: `firstName` reads
`First name`. Reading from the left, the longest match of the first rule that applies is a word:

1. an optional ASCII capital followed by ASCII small letters;
2. ASCII capitals, as many as are not followed by an ASCII small letter;
3. decimal digits of any script.

A character at which no rule applies is dropped. The words are joined by spaces, the first
character becomes a capital and all others become small. A name without any word is its own
label. -/

namespace DataShape.Text

/-- An ASCII capital. -/
def isCapital (c : Char) : Bool := 'A' ≤ c && c ≤ 'Z'

/-- An ASCII small letter. -/
def isSmall (c : Char) : Bool := 'a' ≤ c && c ≤ 'z'

/-- The length of a run of capitals that is not followed by a small letter: the whole run, or one
less when a small letter follows. -/
def acronymLength (cs : List Char) : Nat :=
  let run := cs.takeWhile isCapital
  if (cs.drop run.length).head?.any isSmall then run.length - 1 else run.length

/-- The length of the word at the front of a text, zero when none starts there. -/
def wordLength : List Char → Nat
  | [] => 0
  | c :: rest =>
      if isSmall c then ((c :: rest).takeWhile isSmall).length
      else if isCapital c && rest.head?.any isSmall then (rest.takeWhile isSmall).length + 1
      else if isCapital c then acronymLength (c :: rest)
      else ((c :: rest).takeWhile isDigit).length

/-- The words of a text, from the left. The counter `inside` tells how many characters of the
current word are still to come. -/
def splitWords : Nat → List Char → List (List Char)
  | _, [] => []
  | 0, c :: rest =>
      match wordLength (c :: rest) with
      | 0 => splitWords 0 rest
      | n + 1 => (c :: rest.take n) :: splitWords n rest
  | n + 1, _ :: rest => splitWords n rest

/-- The words of a name. -/
def words (s : String) : List String := (splitWords 0 s.toList).map String.ofList

/-- First character in capitals, all others in small letters; only ASCII letters have a case
here, since words hold no other letters. -/
def capitalize (s : String) : String :=
  match s.toList with
  | [] => ""
  | c :: rest => String.ofList (c.toUpper :: rest.map Char.toLower)

/-- The display label of a name. -/
def labelOf (name : String) : String :=
  match words name with
  | [] => name
  | ws => capitalize (" ".intercalate ws)

/-- The empty name is its own label. -/
@[simp] theorem labelOf_empty : labelOf "" = "" := by decide

/-- A run of capitals gives a word only of capitals. -/
theorem acronymLength_le (cs : List Char) : acronymLength cs ≤ (cs.takeWhile isCapital).length := by
  unfold acronymLength
  simp only
  split <;> omega

end DataShape.Text
