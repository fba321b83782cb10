import DataShape.Sorting.Basic
import DataShape.Value.Equality

/-! # Order of values

Numbers are ordered by value, texts by code points, byte strings, lists and tuples by their first
difference, dates and times by the calendar. Values of different kinds, and values of kinds without
an order, are not comparable; sorting a list of them fails.

* `Value.less?` — the order, `none` where there is none.
* `sorted?`, `sortedBy?` — a stable sort that fails when two values that it compares cannot be
  compared. -/

namespace DataShape

/-- Numeric order of two scalars. -/
def Value.numericLess? (a b : Value) : Option Bool :=
  match a, b with
  | .float x, .float y => some (x.lt y)
  | .float x, b => b.integral?.map x.lessInt
  | a, .float y => a.integral?.map fun n => Binary64.intLess n y
  | a, b => match a.integral?, b.integral? with
    | some m, some n => some (m < n)
    | _, _ => none

/-- Dates in calendar order. -/
def Date.before (d e : Date) : Bool :=
  d.year < e.year || (d.year == e.year && (d.month < e.month
    || (d.month == e.month && d.day < e.day)))

/-- Moments in time order, if both or neither have an offset. -/
def DateTime.before? (d e : DateTime) : Option Bool :=
  match d.time.offset, e.time.offset with
  | none, none => some (d.moment < e.moment)
  | some _, some _ => some (d.moment < e.moment)
  | _, _ => none

/-- Times of day in order, if both or neither have an offset. With different offsets the whole
seconds are moved to universal time by the whole seconds of the offsets. -/
def Time.before? (t u : Time) : Option Bool :=
  match t.offset, u.offset with
  | none, none => some (t.micros < u.micros)
  | some a, some b =>
      if a = b then some (t.micros < u.micros)
      else
        let first := t.seconds - Int.fdiv a Calendar.microsPerSecond
        let second := u.seconds - Int.fdiv b Calendar.microsPerSecond
        some (first < second || (first == second && t.microsecond < u.microsecond))
  | _, _ => none

/-- Byte strings by their first difference. -/
def bytesBefore : List UInt8 → List UInt8 → Bool
  | [], [] => false
  | [], _ :: _ => true
  | _ :: _, [] => false
  | a :: as, b :: bs => a < b || (a == b && bytesBefore as bs)

mutual

/-- Whether the first value comes before the second. -/
def Value.less? : Value → Value → Option Bool
  | .str a, .str b => some (a < b)
  | .bytes a, .bytes b => some (bytesBefore a b)
  | .date a, .date b => some (a.before b)
  | .datetime a, .datetime b => a.before? b
  | .time a, .time b => a.before? b
  | .list _ a, .list _ b => lessItems? a b
  | .tuple a, .tuple b => lessItems? a b
  | .bool a, b => Value.numericLess? (.bool a) b
  | .int a, b => Value.numericLess? (.int a) b
  | .float a, b => Value.numericLess? (.float a) b
  | _, _ => none
termination_by structural a => a

/-- The order of the first items that differ decides, and then the lengths. -/
def lessItems? : List Value → List Value → Option Bool
  | [], [] => some false
  | [], _ :: _ => some true
  | _ :: _, [] => some false
  | a :: as, b :: bs => if a.same b then lessItems? as bs else a.less? b
termination_by structural as => as

end

/-! ## Sorting -/

/-- Sort items by their keys. -/
def sortedBy? {α : Type} (key : α → Value) (items : List α) : Option (List α) :=
  Sorting.sort? (fun a b => (key a).less? (key b)) items

/-- Sort values. -/
def sorted? (vs : List Value) : Option (List Value) := sortedBy? id vs

/-- Sort texts by code points. -/
def sortTexts (ss : List String) : List String := ss.mergeSort fun a b => a ≤ b

@[simp] theorem sorted?_nil : sorted? [] = some [] := rfl

@[simp] theorem sorted?_singleton (v : Value) : sorted? [v] = some [v] := by
  simp [sorted?, sortedBy?]

end DataShape
