import DataShape.Text.Identifier
import DataShape.Value.Display

/-! # Capabilities

A capability is a named function, or a named accessor with a getter, a setter or both, that is
attached to schemas, fields or types. A function is given the object it is used on as its first
argument, unless it is static.

* `makeCapability` — build one; the name must be an identifier, and the parts must be either a
  function or an accessor.
* `Capability.bind`, `Capability.read`, `Capability.write` — use one on an object. -/

namespace DataShape

variable (d : Dispatch)

/-- A capability has no function: it is read and written. -/
def Capability.isAccessor (c : Capability) : Bool := c.function.isNull

/-- Whether a value names a capability: an identifier, or an object that says it is one. -/
def isCapabilityName (name : Value) : Action Bool := do
  match name with
  | .str s => return Text.isIdentifier s
  | other =>
      if ← truthOf d other then truthOf d (← callMember d other "isidentifier" [])
      else return false

/-- Build a capability from a name and its parts, absent ones being `null`. -/
def makeCapability (name function getter setter : Value) : Action Capability := do
  if !(← isCapabilityName d name) then throw (.definition (.capabilityName (← shown d name)))
  else if function.isNull && getter.isNull && setter.isNull then
    throw (.definition (.capabilityEmpty (← textOf d name)))
  else if !function.isNull && !(getter.isNull && setter.isNull) then
    throw (.definition (.capabilityMixed (← textOf d name)))
  else return ⟨name, function, getter, setter⟩

/-- The function of a capability bound to a receiver, which must not be empty; a static function
stays free. -/
def Capability.bind (c : Capability) (receiver : Value) : Action Value :=
  match c.function with
  | .null => do throw (.access (.notFunction (← textOf d c.name)))
  | .static _ _ f => pure f
  | f =>
      if f.isCallable && !receiver.isNull then pure (.bound f receiver) else throw .wrongType

/-- Read a capability as a member of a receiver: the bound function, or what the getter gives. -/
def Capability.read (c : Capability) (receiver : Value) : Action Value :=
  if !c.isAccessor then c.bind d receiver
  else if c.getter.isNull then do throw (.access (.writeOnly (← textOf d c.name)))
  else d.call c.getter [receiver] []

/-- Write a capability of a receiver through its setter. -/
def Capability.write (c : Capability) (receiver value : Value) : Action Unit :=
  if c.setter.isNull then do throw (.access (.readOnly (← textOf d c.name)))
  else discard (d.call c.setter [receiver, value] [])

/-- After an installation the name leads to the installed capability. -/
theorem CapabilityTable.get?_install_self (t : CapabilityTable) (c : Capability) {name : String}
    (h : c.name = .str name) : (t.install c).get? (.str name) = some c.toValue := by
  induction t with
  | nil => simp [CapabilityTable.install, h]
  | cons e rest ih =>
    simp only [CapabilityTable.install, h] at ih ⊢
    by_cases hk : e.1 == Value.str name <;> simp [hk, ih]

end DataShape
