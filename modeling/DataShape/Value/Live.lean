import DataShape.World

/-! # Live parts inside values

A value may hold live parts of engine objects, whose entries change with the objects. Where two
values are compared, or a value is copied, the live parts in it are looked up first.

* `World.settled` — a value with mappings in the place of its live parts.
* `World.equal`, `areEqual` — equality of values in a world. -/

namespace DataShape

mutual

/-- A value with mappings in the place of its live parts, given their entries; views that are only
to be read are left alone unless they are wanted too. -/
def Value.settledWith (entriesOf : Part → Entries) (views : Bool) : Value → Value
  | .live part readOnly =>
      if readOnly && !views then .live part readOnly else .dict 0 (entriesOf part)
  | .list share items => .list share (settledItems entriesOf views items)
  | .tuple items => .tuple (settledItems entriesOf views items)
  | .dict share entries => .dict share (settledEntries entriesOf views entries)
  | .record id attributes => .record id (settledEntries entriesOf views attributes)
  | v => v
termination_by structural v => v

/-- Settled items. -/
def settledItems (entriesOf : Part → Entries) (views : Bool) : List Value → List Value
  | [] => []
  | v :: vs => v.settledWith entriesOf views :: settledItems entriesOf views vs
termination_by structural vs => vs

/-- Entries with settled values. -/
def settledEntries (entriesOf : Part → Entries) (views : Bool) :
    List (Value × Value) → List (Value × Value)
  | [] => []
  | e :: es => settledEntry entriesOf views e :: settledEntries entriesOf views es
termination_by structural es => es

/-- An entry with a settled value. -/
def settledEntry (entriesOf : Part → Entries) (views : Bool) : Value × Value → Value × Value
  | (k, v) => (k, v.settledWith entriesOf views)
termination_by structural e => e

end

namespace World

/-- The settled entries of a part that lies inside other parts, down to a depth of parts inside
parts. A part inside itself is left as it is. -/
def settledPart (w : World) (views : Bool) : Nat → List Part → Part → Entries
  | 0, _, part => w.partEntries part
  | depth + 1, outer, part =>
      if outer.contains part then w.partEntries part
      else settledEntries (w.settledPart views depth (part :: outer)) views (w.partEntries part)

/-- How deep live parts can be nested without coming back to themselves. -/
def partDepth (w : World) : Nat :=
  2 * w.types.size + w.fields.size + 2 * w.schemas.size + 3 * w.registries.size

/-- A value with mappings in the place of its live parts. -/
def settled (w : World) (views : Bool) (v : Value) : Value :=
  v.settledWith (w.settledPart views w.partDepth []) views

/-- Equality of values in a world. -/
def equal (w : World) (a b : Value) : Bool := (w.settled true a).eq (w.settled true b)

end World

/-- Equality of values in the present world. -/
def areEqual (a b : Value) : Action Bool := return (← get).equal a b

/-- Texts are settled. -/
@[simp] theorem World.settled_str (w : World) (views : Bool) (s : String) :
    w.settled views (.str s) = .str s := by
  simp [World.settled, Value.settledWith]

end DataShape
