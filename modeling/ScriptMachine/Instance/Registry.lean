import ScriptMachine.Error
import ScriptMachine.Storage

/-!
# The instance registry

Live instances sit in numbered slots. A slot counts its generations: a freed slot is used again
under the next generation, so a handle reads its instance exactly as long as that instance lives.
Handles name slots by numbers of 32 bits, and count generations by them. Both come round, so this
holds of registries with at most 2 ^ 32 slots, until a slot was freed 2 ^ 32 times.
-/

namespace ScriptMachine

/-- How far an instance has come. -/
inductive InstanceState where
  /-- The fields hold zeros; the body has not run. -/
  | allocated
  | initialized
  deriving DecidableEq

/-- A live instance. -/
structure Instance where
  /-- The index of its class. -/
  cls : UInt32
  state : InstanceState
  /-- The storage of each member of the class, in order of declaration. -/
  fields : Array Storage
  deriving DecidableEq

/-- A place for an instance. -/
structure Slot where
  generation : UInt32
  content : Option Instance
  deriving DecidableEq

/-- The live instances of a machine. -/
structure Registry where
  slots : Array Slot
  /-- The slots to use again, the one freed last first. -/
  free : List UInt32
  live : Nat
  limit : Nat
  deriving DecidableEq

namespace Registry

/-- A registry for at most `limit` instances. -/
def empty (limit : Nat) : Registry := ⟨#[], [], 0, limit⟩

variable (r : Registry)

/-- Chooses the slot for an instance: the one freed last, or a new one if none is free. A new slot
is known by the last 32 bits of its number. -/
def claim : UInt32 × Registry :=
  match r.free with
  | slot :: rest => (slot, { r with free := rest })
  | [] => (UInt32.ofNat r.slots.size, { r with slots := r.slots.push ⟨0, none⟩ })

/-- The handle for the instance that a slot holds. -/
def handle (slot symbol : UInt32) (tag : InstanceTag) : Handle :=
  ⟨slot, (r.slots[slot.toNat]?.map (·.generation)).getD 0, symbol, tag⟩

/-- The registry once a slot holds another instance. -/
def fill (slot : UInt32) (x : Instance) : Registry :=
  { r with slots := r.slots.modify slot.toNat fun s => { s with content := some x } }

/-- Puts an instance into a free slot, or into a new one if there is none. -/
def insert (symbol : UInt32) (tag : InstanceTag) (x : Instance) :
    Except Error (Handle × Registry) :=
  if r.limit ≤ r.live then .error (.allocationExhausted r.limit)
  else
    let (slot, r) := r.claim
    .ok (r.handle slot symbol tag, { r.fill slot x with live := r.live + 1 })

/-- The instance a handle refers to, if it is live. -/
def get? (h : Handle) : Option Instance :=
  match r.slots[h.slot.toNat]? with
  | some s => if s.generation = h.generation then s.content else none
  | none => none

/-- The instance a handle refers to. -/
def get (h : Handle) : Except Error Instance :=
  match r.get? h with
  | some x => .ok x
  | none => .error .staleInstance

/-- Puts another instance in the place of the one a handle refers to. -/
def put (h : Handle) (x : Instance) : Registry := r.fill h.slot x

/-- Frees the instance a handle refers to. -/
def remove (h : Handle) : Except Error Registry :=
  match r.get? h with
  | some _ =>
    .ok { r with
      slots := r.slots.modify h.slot.toNat fun s => ⟨s.generation + 1, none⟩
      free := h.slot :: r.free
      live := r.live - 1 }
  | none => .error .staleInstance

end Registry

end ScriptMachine
