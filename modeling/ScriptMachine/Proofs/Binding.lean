import ScriptMachine.Proofs.Change
import ScriptMachine.Proofs.Generation

/-!
# Instances bound to symbols

What is bound to a symbol is what was bound last, provided that the symbol has a global storage at
all. No change of a machine adds or removes storages.

* `Memory.bound_bind` – what binding binds.
* `Memory.Refuses` – whether a member cannot be read or written in an instance.
* `Memory.Stored` – what a write does.
* `Memory.Step` – what a change of a machine does to its memory.
* `Machine.Evolves.keeps_memory` – what every such step keeps is kept for good.
* `Machine.Evolves.size_globals` – the number of storages stays.
* `Machine.slot_setSlot` – putting back what was bound to a slot.
-/

namespace ScriptMachine

/-- A symbol is found under an index exactly if it is the one at the index. -/
theorem Script.find_index_eq_ok {p : Script} {i : UInt32} {s : Symbol} :
    p.find (.index i) = .ok s ↔ p.symbolByIndex? i = some s := by
  rw [find, resolve?]
  cases p.symbolByIndex? i with
  | none => simp
  | some t => simp

namespace Memory

variable {m m' : Memory} {p : Script} {flags : ExecutionFlags} {e : Error}

/-- Storage that an instance is bound to holds the instance in its first cell. -/
theorem get_bindCell (h : Option Handle) (st : Storage) : (bindCell h st).get .inst 0 = .ok h := by
  cases st with
  | insts cells =>
    rw [bindCell, Storage.set]
    by_cases hs : 0 < cells.size
    · simp [Storage.cells?, hs, Storage.get, Storage.ofCells]
    · simp [Storage.cells?, hs, Storage.get]
  | _ => rfl

theorem bound_bind {i : UInt32} (hi : i.toNat < m.globals.size) (h : Option Handle) :
    (m.bind i h).bound i = h := by
  have hg : (m.bind i h).globals[i.toNat]? = some (bindCell h m.globals[i.toNat]) := by
    rw [bind, Array.getElem?_modify, if_pos rfl, Array.getElem?_eq_getElem hi]
    rfl
  rw [bound, hg]
  simp only [get_bindCell]
  rfl

/-- Nothing is bound to a symbol without a storage. -/
theorem bound_of_size_le {i : UInt32} (hi : m.globals.size ≤ i.toNat) : m.bound i = none := by
  rw [bound, Array.getElem?_eq_none hi]

theorem size_bind (i : UInt32) (h : Option Handle) :
    (m.bind i h).globals.size = m.globals.size := Array.size_modify

/-! ## What a write does -/

/-- Whether one memory becomes another by a cell being written: nothing happens where the write is
dropped, else a storage is replaced by one in which the cell has the value. A field is one of a live
instance. -/
inductive Stored (m : Memory) (v : CellValue) : Memory → Prop where
  | dropped : Stored m v m
  | global {i : UInt32} {n : Nat} {st st' : Storage} (hst : m.globals[i.toNat]? = some st)
      (hset : st.set n v = .ok st') :
      Stored m v { m with globals := m.globals.setIfInBounds i.toNat st' }
  | field {h : Handle} {x : Instance} {k n : Nat} {st st' : Storage}
      (hx : m.instances.get? h = some x) (hst : x.fields[k]? = some st)
      (hset : st.set n v = .ok st') :
      Stored m v { m with
        instances := m.instances.put h { x with fields := x.fields.setIfInBounds k st' } }

/-- Replacing the storage at a place is a write, if it is found there. -/
theorem Stored.putAt {v : CellValue} {place : Place} {n : Nat} {st st' : Storage}
    (hplace : ∀ h x k, place = .field h x k → m.instances.get? h = some x)
    (hst : m.storageAt? place = some st) (hset : st.set n v = .ok st') :
    Stored m v (m.putAt st' place) := by
  cases place with
  | global i => exact .global hst hset
  | field h x k => exact .field (hplace h x k rfl) hst hset

/-- Where a member is looked for in a live instance. -/
theorem locate_member {s : Symbol} {h : Handle} {x : Instance} (hs : s.isMember = true)
    (hx : m.instances.get? h = some x) (i : UInt32) : m.locate p flags s i (some h) =
      if s.parent = some x.cls then (ordinal x.cls i).map fun n => some (.field h x n)
      else .error (.illegalMemberAccess s.name (p.nameOrIndex x.cls)) := by
  rw [locate, if_pos hs]
  simp only [Registry.get_eq_ok.2 hx]

/-- What locating a symbol says of its place. A member is located in a live instance of its class,
at its position. -/
theorem eq_of_locate {s : Symbol} {i : UInt32} {context : Option Handle} {place : Place}
    (hl : m.locate p flags s i context = .ok (some place)) :
    (s.isMember = false ∧ place = .global i) ∨
      ∃ h x n, s.isMember = true ∧ context = some h ∧ m.instances.get? h = some x ∧
        s.parent = some x.cls ∧ ordinal x.cls i = .ok n ∧ place = .field h x n := by
  by_cases hs : s.isMember = true
  · right
    rcases context with _ | h
    · rw [locate, if_pos hs] at hl
      split at hl <;> cases hl
    rcases hx : m.instances.get? h with _ | x
    · rw [locate, if_pos hs] at hl
      simp only [Registry.get, hx] at hl
      cases hl
    rw [locate_member hs hx] at hl
    split at hl
    · next hparent =>
      rcases hn : ordinal x.cls i with e | n
      · rw [hn] at hl
        cases hl
      · rw [hn] at hl
        exact ⟨h, x, n, hs, rfl, hx, hparent, hn, (Option.some.inj (Except.ok.inj hl)).symm⟩
    · cases hl
  · unfold locate at hl
    rw [if_neg hs] at hl
    exact .inl ⟨Bool.eq_false_iff.2 hs, (Option.some.inj (Except.ok.inj hl)).symm⟩

/-- A member is located in a live instance. -/
theorem get?_of_locate {s : Symbol} {i : UInt32} {context : Option Handle} {h : Handle}
    {x : Instance} {k : Nat} (hl : m.locate p flags s i context = .ok (some (.field h x k))) :
    m.instances.get? h = some x := by
  rcases eq_of_locate hl with ⟨-, hplace⟩ | ⟨h', x', n, -, -, hx, -, -, hplace⟩
  · cases hplace
  · obtain ⟨rfl, rfl, -⟩ := Place.field.inj hplace
    exact hx

/-- Whether all elements of a member are refused in an instance, under one error for reading and one
for writing. A constant is not written to in the first place. -/
structure Refuses (m : Memory) (p : Script) (flags : ExecutionFlags) (s : Symbol) (i : UInt32)
    (h : Handle) (reading writing : Error) : Prop where
  read : ∀ k j, m.read p flags k ⟨i, j, some h⟩ = .error reading
  write : ∀ v j, m.write p flags ⟨i, j, some h⟩ v =
    .error (if s.isConst && !flags.contains .ignoreConst then .illegalConstAccess s.name
      else writing)

/-- What cannot be located is refused. -/
theorem refuses_of_locate {s : Symbol} {i : UInt32} {h : Handle} (hs : p.symbolByIndex? i = some s)
    (hl : m.locate p flags s i (some h) = .error e) : m.Refuses p flags s i h e e where
  read k j := by
    have hfind : p.find (.index i) = .ok s := Script.find_index_eq_ok.2 hs
    rw [read, Except.bind_of_ok hfind, hl]
    rfl
  write v j := by
    have hfind : p.find (.index i) = .ok s := Script.find_index_eq_ok.2 hs
    rw [write, Except.bind_of_ok hfind]
    split
    · rfl
    · rw [hl]
      rfl

/-- The storage of a member is one of a live instance. -/
theorem eq_field_of_memberStorage {h : Handle} {member : String} {place : Place} {st : Storage}
    (hm : m.memberStorage p h member = .ok (place, st)) :
    (∃ x k, place = .field h x k ∧ m.instances.get? h = some x) ∧
      m.storageAt? place = some st := by
  obtain ⟨q, hq, hm⟩ := Except.bind_eq_ok.1 hm
  obtain ⟨x, hx, hq⟩ := Except.bind_eq_ok.1 hq
  obtain ⟨cls, -, hq⟩ := Except.bind_eq_ok.1 hq
  have hplace : ∃ k, q = .field h x k := by
    split at hq
    · cases hq
    · obtain ⟨k, -, hq⟩ := Except.bind_eq_ok.1 hq
      exact ⟨k, (Except.ok.inj hq).symm⟩
  split at hm
  · next st' hst =>
    obtain ⟨rfl, rfl⟩ := Prod.mk.inj (Except.ok.inj hm)
    obtain ⟨k, rfl⟩ := hplace
    exact ⟨⟨x, k, rfl, Registry.get_eq_ok.1 hx⟩, hst⟩
  · cases hm

theorem stored_of_write {r : Reference} {v : CellValue} (h : m.write p flags r v = .ok m') :
    Stored m v m' := by
  obtain ⟨s, -, h⟩ := Except.bind_eq_ok.1 h
  dsimp only at h
  split at h
  · cases h
  obtain ⟨place, hplace, h⟩ := Except.bind_eq_ok.1 h
  rcases place with _ | place
  · rw [← Except.ok.inj h]
    exact .dropped
  rcases hst : m.storageAt? place with _ | st
  · cases place with
    | global =>
      simp only [hst] at h
      rw [← Except.ok.inj h]
      exact .dropped
    | field =>
      simp only [hst] at h
      cases h
  rcases hset : st.set r.index v with e | st'
  · simp only [hst, hset] at h
    cases h
  · simp only [hst, hset] at h
    rw [← Except.ok.inj h]
    exact .putAt (fun _ _ _ he => get?_of_locate (he ▸ hplace)) hst hset

theorem stored_of_writeField {v : CellValue} {x : Handle} {member : String} {index : Nat}
    (h : m.writeField p v x member index = .ok m') : Stored m v m' := by
  obtain ⟨⟨place, st⟩, hplace, h⟩ := Except.bind_eq_ok.1 h
  dsimp only at h
  split at h
  · next st' hset =>
    rw [← Except.ok.inj h]
    obtain ⟨⟨y, k, rfl, hy⟩, hst⟩ := eq_field_of_memberStorage hplace
    exact .field hy hst hset
  · cases h

theorem Stored.size_globals {v : CellValue} (h : Stored m v m') :
    m'.globals.size = m.globals.size := by
  cases h with
  | dropped | field => rfl
  | global => exact Array.size_setIfInBounds

/-! ## What allocating and freeing do -/

theorem alloc_eq_ok {s : Symbol} {tag : InstanceTag} {x : Handle}
    (h : m.alloc p s tag = .ok (x, m')) :
    ∃ cls instances, classFor p s tag = .ok cls ∧
      m.instances.insert s.index tag (freshInstance p cls) = .ok (x, instances) ∧
        m' = ({ m with instances }).bind s.index (some x) := by
  obtain ⟨cls, hcls, h⟩ := Except.bind_eq_ok.1 h
  obtain ⟨⟨y, instances⟩, hi, h⟩ := Except.bind_eq_ok.1 h
  obtain ⟨rfl, rfl⟩ := Prod.mk.inj (Except.ok.inj h)
  exact ⟨cls, instances, hcls, hi, rfl⟩

theorem free_eq_ok {x : Handle} (h : m.free x = .ok m') :
    ∃ instances, m.instances.remove x = .ok instances ∧
      m' = ⟨m.globals.map (Storage.forget x), instances⟩ := by
  obtain ⟨instances, hi, h⟩ := Except.bind_eq_ok.1 h
  exact ⟨instances, hi, (Except.ok.inj h).symm⟩

theorem markInitialized_eq_ok {x : Handle} (h : m.markInitialized x = .ok m') :
    ∃ y, m.instances.get? x = some y ∧
      m' = { m with instances := m.instances.put x { y with state := .initialized } } := by
  obtain ⟨y, hy, h⟩ := Except.bind_eq_ok.1 h
  exact ⟨y, Registry.get_eq_ok.1 hy, (Except.ok.inj h).symm⟩

theorem size_alloc {s : Symbol} {tag : InstanceTag} {x : Handle}
    (h : m.alloc p s tag = .ok (x, m')) : m'.globals.size = m.globals.size := by
  obtain ⟨cls, instances, -, -, rfl⟩ := alloc_eq_ok h
  exact size_bind _ _

theorem size_free {x : Handle} (h : m.free x = .ok m') : m'.globals.size = m.globals.size := by
  obtain ⟨instances, -, rfl⟩ := free_eq_ok h
  exact Array.size_map

theorem globals_markInitialized {x : Handle} (h : m.markInitialized x = .ok m') :
    m'.globals = m.globals := by
  obtain ⟨y, -, rfl⟩ := markInitialized_eq_ok h
  rfl

/-! ## What a machine does to its memory -/

/-- What a change of a machine that runs a script does to its memory. -/
inductive Step (p : Script) (m : Memory) : Memory → Prop where
  | same : Step p m m
  | store {v : CellValue} {m' : Memory} (h : Stored m v m') : Step p m m'
  | alloc {key : SymbolKey} {s : Symbol} {tag : InstanceTag} {x : Handle} {m' : Memory}
      (hs : p.find key = .ok s) (h : m.alloc p s tag = .ok (x, m')) : Step p m m'
  | free {x : Handle} {m' : Memory} (h : m.free x = .ok m') : Step p m m'
  | setSlot (slot : GlobalSlot) (x : Option Handle) :
      Step p m (m.bind (p.slotIndex slot.symbolName) x)
  | markInitialized {x : Handle} {m' : Memory} (h : m.markInitialized x = .ok m') : Step p m m'

/-- No step adds or removes storages. -/
theorem Step.size_globals (h : Step p m m') : m'.globals.size = m.globals.size := by
  cases h with
  | same => rfl
  | store h => exact h.size_globals
  | alloc _ h => exact size_alloc h
  | free h => exact size_free h
  | setSlot => exact size_bind _ _
  | markInitialized h => exact congrArg Array.size (globals_markInitialized h)

end Memory

namespace Machine

variable {σ : Type} {m m' : Machine σ}

/-- An edit takes the memory one step further, if it does anything to it. -/
theorem Edit.memory (h : Edit m m') : m.memory.Step m.script m'.memory := by
  cases h with
  | fail h e =>
    rw [poisonWith, h]
    exact .same
  | write h => exact .store (Memory.stored_of_write h)
  | writeField h => exact .store (Memory.stored_of_writeField h)
  | alloc hs h => exact .alloc hs h
  | free h => exact .free h
  | setSlot slot x => exact .setSlot slot x
  | markInitialized h => exact .markInitialized h
  | registerExternal h =>
    obtain ⟨f, -, -, log, rfl, -⟩ := registerExternal_eq_ok h
    exact .same
  | overrideFunction h =>
    obtain ⟨f, -, -, rfl⟩ := overrideFunction_eq_ok h
    exact .same
  | reportUnregistered f =>
    rw [Machine.reportUnregistered]
    split <;> exact .same
  | _ => exact .same

/-- So does any other change. -/
theorem Change.memory (h : Change m m') : m.memory.Step m.script m'.memory := by
  rcases h.edit_or_sameData with h | h
  · exact h.memory
  · rw [h.memory]
    exact .same

/-- What every step of the memory keeps holds of the memory whatever happens to the machine. -/
theorem Evolves.keeps_memory {Q : Memory → Prop}
    (hQ : ∀ {n n' : Memory}, n.Step m.script n' → Q n → Q n') (h : Evolves m m')
    (hm : Q m.memory) : Q m'.memory := by
  induction h with
  | refl => exact hm
  | tail h hc ih => exact hQ (Evolves.script_eq h ▸ hc.memory) ih

/-- Nothing that happens to a machine adds or removes storages. -/
theorem Evolves.size_globals (h : Evolves m m') :
    m'.memory.globals.size = m.memory.globals.size :=
  h.keeps_memory (Q := (·.globals.size = m.memory.globals.size))
    (fun hs hn => hs.size_globals.trans hn) rfl

/-- What was bound to a slot is bound again once it is put back. -/
theorem slot_setSlot {slot : GlobalSlot} (hs : m'.script = m.script)
    (hg : m'.memory.globals.size = m.memory.globals.size) :
    (m'.setSlot slot (m.slot slot)).slot slot = m.slot slot := by
  have hi : m'.slotIndex slot = m.slotIndex slot := by rw [slotIndex, slotIndex, hs]
  have hl : (m'.setSlot slot (m.slot slot)).slot slot =
      (m'.memory.bind (m.slotIndex slot) (m.slot slot)).bound (m.slotIndex slot) := by
    rw [← hi]
    rfl
  rw [hl]
  by_cases hb : (m.slotIndex slot).toNat < m.memory.globals.size
  · exact Memory.bound_bind (hg ▸ hb) _
  · -- nothing was bound to a slot without a storage, and nothing can be
    rw [Memory.bound_of_size_le (by rw [Memory.size_bind, hg]; omega)]
    exact (Memory.bound_of_size_le (Nat.le_of_not_lt hb)).symm

end Machine

end ScriptMachine
