/-!
# Properties shared by passes

The passes of a pipeline share one flag and a store of findings. A key names
what was found and fixes the type of its value; there is at most one value per
key, and a later one replaces it.
-/

namespace StabilizerLayers

/-- What passes know about the circuit they work on. -/
structure Properties (Key : Type) (Value : Key → Type) where
  /-- Whether the circuit is complete, so that what no measurement sees may go.
      A fragment keeps its end, since other circuits follow it. -/
  wholeCircuit : Bool
  /-- The value of each key, where there is one. -/
  slots : (key : Key) → Option (Value key)

namespace Properties

variable {Key : Type} [DecidableEq Key] {Value : Key → Type}

/-- Nothing found yet. -/
def fresh (wholeCircuit : Bool) : Properties Key Value := ⟨wholeCircuit, fun _ => none⟩

/-- The value of a key. -/
def get? (properties : Properties Key Value) (key : Key) : Option (Value key) :=
  properties.slots key

/-- Replaces the slot of a key. -/
def put (properties : Properties Key Value) (key : Key) (slot : Option (Value key)) :
    Properties Key Value :=
  { properties with slots := fun other =>
      if same : key = other then same ▸ slot else properties.slots other }

/-- Stores a value. -/
def insert (properties : Properties Key Value) (key : Key) (value : Value key) :
    Properties Key Value :=
  properties.put key (some value)

/-- Changes a value, if there is one. -/
def modify (properties : Properties Key Value) (key : Key) (change : Value key → Value key) :
    Properties Key Value :=
  properties.put key ((properties.get? key).map change)

/-- Forgets a value. -/
def erase (properties : Properties Key Value) (key : Key) : Properties Key Value :=
  properties.put key none

/-- The slot that was replaced. -/
@[simp]
theorem get?_put_self (properties : Properties Key Value) (key : Key)
    (slot : Option (Value key)) : (properties.put key slot).get? key = slot := by
  simp [get?, put]

/-- Other slots stay. -/
theorem get?_put_of_ne (properties : Properties Key Value) {key other : Key}
    (slot : Option (Value key)) (different : key ≠ other) :
    (properties.put key slot).get? other = properties.get? other := by
  simp [get?, put, different]

/-- The flag stays. -/
@[simp]
theorem wholeCircuit_put (properties : Properties Key Value) (key : Key)
    (slot : Option (Value key)) :
    (properties.put key slot).wholeCircuit = properties.wholeCircuit :=
  rfl

end Properties

end StabilizerLayers
