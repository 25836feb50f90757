import ScriptMachine.Proofs.Binding
import ScriptMachine.Proofs.Invariant

/-!
# Where copies of a handle lie

Handles are copied freely. A machine may have copies of a handle in its global variables and as its
current instance, which are cleared when the instance is freed, and besides on the stack, in the
fields of instances, and in the frames of callers, which are not. What a script finds in a machine
is one of these copies.

* `Storage.Holds`, `Registry.Holds`, `Memory.Holds` – copies in the cells of a memory.
* `Machine.Bound` – copies that are cleared when the instance is freed.
* `Machine.Held` – copies that are not.
* `Memory.Stored.holds` – a write copies no handle but the one that is written.
* `Machine.stores_of_found` – what a script finds.
-/

namespace ScriptMachine

variable {x : Handle}

/-! ## Storages -/

namespace Storage

/-- Whether a cell of a storage refers to an instance. -/
def Holds (x : Handle) : Storage → Prop
  | insts cells => some x ∈ cells
  | _ => False

instance (x : Handle) : DecidablePred (Holds x)
  | insts cells => inferInstanceAs (Decidable (some x ∈ cells))
  | empty | ints _ | floats _ | strings _ => inferInstanceAs (Decidable False)

variable {st st' : Storage}

theorem holds_ofCells {k : CellKind} {cells : Array k.Content} :
    (ofCells k cells).Holds x ↔ ∃ c ∈ cells, k.toValue c = .inst (some x) := by
  cases k with
  | inst => simp [ofCells, Holds, CellKind.toValue]
  | int | float | string => simp [ofCells, Holds, CellKind.toValue]

/-- A storage is made of its cells. -/
theorem ofCells_of_cells? {k : CellKind} {cells : Array k.Content}
    (h : st.cells? k = some cells) : ofCells k cells = st := by
  cases k <;> cases st <;> simp [cells?] at h <;> rw [← h] <;> rfl

theorem holds_of_get {k : CellKind} {n : Nat} {c : k.Content} (h : st.get k n = .ok c)
    (hc : k.toValue c = .inst (some x)) : st.Holds x := by
  rw [get] at h
  split at h
  · cases h
  · next cells hcells =>
    rw [← ofCells_of_cells? hcells, holds_ofCells]
    split at h
    · next c' hn =>
      obtain rfl := Except.ok.inj h
      exact ⟨c', Array.mem_of_getElem? hn, hc⟩
    · cases h

/-- A cell that is written refers to what is written, and the others to what they did. -/
theorem holds_of_set {n : Nat} {v : CellValue} (h : st.set n v = .ok st') (hx : st'.Holds x) :
    st.Holds x ∨ v.1.toValue v.2 = .inst (some x) := by
  rw [set] at h
  split at h
  · cases h
  · next cells hcells =>
    split at h
    · obtain rfl := Except.ok.inj h
      obtain ⟨c, hc, hcx⟩ := holds_ofCells.1 hx
      rcases Array.mem_or_eq_of_mem_setIfInBounds hc with hc | rfl
      · rw [← ofCells_of_cells? hcells, holds_ofCells]
        exact .inl ⟨c, hc, hcx⟩
      · exact .inr hcx
    · cases h

theorem holds_of_bindCell {h : Option Handle} (hx : (Memory.bindCell h st).Holds x) :
    st.Holds x ∨ h = some x := by
  rw [Memory.bindCell] at hx
  split at hx
  · next st' hset =>
    refine (holds_of_set hset hx).imp_right fun hv => ?_
    exact Value.inst.inj hv
  · exact .inr (by simpa [Holds, eq_comm] using hx)

/-- A storage that is to forget an instance does not refer to it any more. -/
theorem not_holds_forget (x : Handle) (st : Storage) : ¬ (st.forget x).Holds x := by
  cases st <;> simp [forget, Holds]

theorem holds_of_forget {y : Handle} (hx : (st.forget y).Holds x) : st.Holds x := by
  cases st with
  | insts cells =>
    obtain ⟨c, hc, hcx⟩ := Array.mem_map.1 hx
    split at hcx
    · cases hcx
    · rwa [hcx] at hc
  | _ => exact hx

/-- The storage a symbol starts with refers to no instance. -/
theorem not_holds_ofSymbol (s : Symbol) : ¬ (ofSymbol s).Holds x := by
  have hzeros : ∀ (k : CellKind) (n : Nat), ¬ (zeros k n).Holds x := by
    intro k n hx
    obtain ⟨c, hc, hcx⟩ := holds_ofCells.1 hx
    rw [(Array.mem_replicate.1 hc).2, CellKind.toValue_zero] at hcx
    cases k <;> cases hcx
  unfold ofSymbol
  dsimp only
  split
  · exact id
  · exact id
  · exact id
  · split
    all_goals first | exact hzeros _ _ | exact id

end Storage

/-! ## Instances and memories -/

/-- Whether a field of an instance refers to an instance. -/
def Instance.Holds (x : Handle) (y : Instance) : Prop := ∃ st ∈ y.fields, st.Holds x

/-- Whether a field of a live instance refers to an instance. -/
def Registry.Holds (x : Handle) (r : Registry) : Prop :=
  ∃ s ∈ r.slots, ∃ y ∈ s.content, y.Holds x

/-- Whether a global variable refers to an instance. -/
def Memory.Binds (x : Handle) (m : Memory) : Prop := ∃ st ∈ m.globals, st.Holds x

/-- Whether a global variable or a field of a live instance refers to an instance. -/
def Memory.Holds (x : Handle) (m : Memory) : Prop := m.Binds x ∨ m.instances.Holds x

instance (x : Handle) : DecidablePred (Instance.Holds x) :=
  fun y => inferInstanceAs (Decidable (∃ st ∈ y.fields, st.Holds x))

instance (x : Handle) : DecidablePred (Registry.Holds x) :=
  fun r => inferInstanceAs (Decidable (∃ s ∈ r.slots, ∃ y ∈ s.content, y.Holds x))

namespace Registry

variable {r r' : Registry} {h : Handle} {s : Slot} {y : Instance}

theorem holds_of_get? (hy : r.get? h = some y) (hx : y.Holds x) : r.Holds x :=
  ⟨_, Array.mem_of_getElem? (get?_eq_some.1 hy), y, rfl, hx⟩

/-- A registry refers to an instance where the slot that has changed does, or where it did. -/
theorem Changed.holds (hc : Changed r h s r') (hx : r'.Holds x) :
    r.Holds x ∨ ∃ y ∈ s.content, y.Holds x := by
  obtain ⟨t, ht, hy⟩ := hx
  obtain ⟨n, hn⟩ := Array.mem_iff_getElem?.1 ht
  rw [hc.slots] at hn
  split at hn
  · obtain rfl := Option.some.inj hn
    exact .inr hy
  · exact .inl ⟨t, Array.mem_of_getElem? hn, hy⟩

/-- A handle reads what is put into its slot. -/
theorem Changed.get?_self (hc : Changed r h ⟨h.generation, some y⟩ r') : r'.get? h = some y :=
  get?_eq_some.2 (by rw [hc.slots, if_pos rfl])

/-- An instance that is put into a slot of the generation named does not make a handle stale. -/
theorem Changed.isSome_get? (hc : Changed r h ⟨h.generation, some y⟩ r')
    (hslot : r.slots[h.slot.toNat]? = none ∨ ∃ c, r.slots[h.slot.toNat]? = some ⟨h.generation, c⟩)
    (hx : (r.get? x).isSome) : (r'.get? x).isSome := by
  obtain ⟨z, hz⟩ := Option.isSome_iff_exists.1 hx
  have hz := get?_eq_some.1 hz
  by_cases hs : x.slot = h.slot
  · rw [hs] at hz
    rcases hslot with hn | ⟨c, hn⟩
    · rw [hn] at hz
      cases hz
    · rw [hn, Option.some.injEq, Slot.mk.injEq] at hz
      refine Option.isSome_iff_exists.2 ⟨y, get?_eq_some.2 ?_⟩
      rw [hc.slots, hs, if_pos rfl, hz.1]
  · refine Option.isSome_iff_exists.2 ⟨z, get?_eq_some.2 ?_⟩
    rwa [hc.slots, if_neg fun he => hs (UInt32.toNat_inj.1 he)]

/-- Freeing an instance makes no handle stale but those to the instance. -/
theorem Changed.isSome_get?_of_ne (hc : Changed r h s r') (hh : (r.get? h).isSome)
    (hne : ¬ (x.slot = h.slot ∧ x.generation = h.generation)) (hx : (r.get? x).isSome) :
    (r'.get? x).isSome := by
  obtain ⟨y, hy⟩ := Option.isSome_iff_exists.1 hh
  obtain ⟨z, hz⟩ := Option.isSome_iff_exists.1 hx
  have hy := get?_eq_some.1 hy
  have hz := get?_eq_some.1 hz
  by_cases hs : x.slot = h.slot
  · -- then the slot is in one generation, which both handles name
    rw [hs, hy, Option.some.injEq, Slot.mk.injEq] at hz
    exact absurd ⟨hs, hz.1.symm⟩ hne
  · refine Option.isSome_iff_exists.2 ⟨z, get?_eq_some.2 ?_⟩
    rwa [hc.slots, if_neg fun he => hs (UInt32.toNat_inj.1 he)]

end Registry

namespace Memory

variable {m m' : Memory} {p : Script} {flags : ExecutionFlags} {y : Handle}

/-- A script starts without references to instances. -/
theorem not_holds_ofScript (p : Script) (limit : Nat) : ¬ (ofScript p limit).Holds x := by
  rintro (⟨st, hst, hx⟩ | ⟨s, hs, -⟩)
  · obtain ⟨s, -, rfl⟩ := Array.mem_map.1 hst
    rw [initialStorage] at hx
    split at hx
    · exact hx
    · exact Storage.not_holds_ofSymbol s hx
  · exact Array.not_mem_empty s hs

theorem not_holds_freshInstance (p : Script) (cls : Symbol) :
    ¬ (freshInstance p cls).Holds x := by
  rintro ⟨st, hst, hx⟩
  obtain ⟨s, -, rfl⟩ := List.mem_map.1 (List.mem_toArray.1 hst)
  exact Storage.not_holds_ofSymbol s hx

/-- Binding an instance to a symbol copies the handle of the instance only. -/
theorem binds_of_bind {i : UInt32} {h : Option Handle} (hx : (m.bind i h).Binds x) :
    m.Binds x ∨ h = some x := by
  obtain ⟨st, hst, hx⟩ := hx
  obtain ⟨n, hn⟩ := Array.mem_iff_getElem?.1 hst
  rw [bind, Array.getElem?_modify] at hn
  split at hn
  · obtain ⟨st', hst', rfl⟩ := Option.map_eq_some_iff.1 hn
    exact (Storage.holds_of_bindCell hx).imp_left fun hx => ⟨st', Array.mem_of_getElem? hst', hx⟩
  · exact .inl ⟨st, Array.mem_of_getElem? hn, hx⟩

/-- Once an instance is freed no global variable refers to it, and no other reference is new. -/
theorem binds_of_forget {instances : Registry}
    (hx : Binds x ⟨m.globals.map (Storage.forget y), instances⟩) : m.Binds x ∧ x ≠ y := by
  obtain ⟨st, hst, hx⟩ := hx
  obtain ⟨st', hst', rfl⟩ := Array.mem_map.1 hst
  refine ⟨⟨st', hst', Storage.holds_of_forget hx⟩, ?_⟩
  rintro rfl
  exact Storage.not_holds_forget _ _ hx

/-- What is read from a memory lies in it. -/
theorem holds_of_read {k : CellKind} {r : Reference} {c : k.Content}
    (h : m.read p flags k r = .ok c) (hc : k.toValue c = .inst (some x)) : m.Holds x := by
  have hzero : k.toValue k.zero ≠ .inst (some x) := by
    rw [CellKind.toValue_zero]
    cases k <;> exact fun h => by cases h
  obtain ⟨s, -, h⟩ := Except.bind_eq_ok.1 h
  obtain ⟨place, hplace, h⟩ := Except.bind_eq_ok.1 h
  rcases place with _ | place
  · obtain rfl := Except.ok.inj h
    exact absurd hc hzero
  rcases hst : m.storageAt? place with _ | st
  · cases place with
    | global =>
      simp only [hst] at h
      obtain rfl := Except.ok.inj h
      exact absurd hc hzero
    | field =>
      simp only [hst] at h
      cases h
  · simp only [hst] at h
    have hget : st.get k r.index = .ok c := by
      rcases hg : st.get k r.index with e | c'
      · rw [hg] at h
        cases h
      · rw [hg] at h
        exact congrArg _ (Except.ok.inj h)
    have hx := Storage.holds_of_get hget hc
    cases place with
    | global i => exact .inl ⟨st, Array.mem_of_getElem? hst, hx⟩
    | field y z n =>
      have hz := get?_of_locate hplace
      exact .inr (Registry.holds_of_get? hz ⟨st, Array.mem_of_getElem? hst, hx⟩)

/-- A write copies no handle but the one that is written. -/
theorem Stored.holds {v : CellValue} (h : Stored m v m') (hx : m'.Holds x) :
    m.Holds x ∨ v.1.toValue v.2 = .inst (some x) := by
  cases h with
  | dropped => exact .inl hx
  | global hst hset =>
    rcases hx with ⟨st, hmem, hx⟩ | hx
    · rcases Array.mem_or_eq_of_mem_setIfInBounds hmem with hmem | rfl
      · exact .inl (.inl ⟨st, hmem, hx⟩)
      · exact (Storage.holds_of_set hset hx).imp_left fun hx =>
          .inl ⟨_, Array.mem_of_getElem? hst, hx⟩
    · exact .inl (.inr hx)
  | @field h y k n st st' hy hst hset =>
    rcases hx with hx | hx
    · exact .inl (.inl hx)
    rcases (Registry.changed_put hy).holds hx with hx | ⟨z, hz, t, ht, htx⟩
    · exact .inl (.inr hx)
    obtain rfl := Option.some.inj hz
    have hfield : ∀ {u}, u ∈ y.fields → u.Holds x → m.Holds x :=
      fun hu hx => .inr (Registry.holds_of_get? hy ⟨_, hu, hx⟩)
    rcases Array.mem_or_eq_of_mem_setIfInBounds ht with ht | rfl
    · exact .inl (hfield ht htx)
    · exact (Storage.holds_of_set hset htx).imp_left (hfield (Array.mem_of_getElem? hst))

/-- A write makes no handle stale. -/
theorem Stored.isSome_get? {v : CellValue} (h : Stored m v m')
    (hx : (m.instances.get? x).isSome) : (m'.instances.get? x).isSome := by
  cases h with
  | dropped | global => exact hx
  | field hy =>
    exact (Registry.changed_put hy).isSome_get? (.inr ⟨_, Registry.get?_eq_some.1 hy⟩) hx

end Memory

/-! ## Machines -/

namespace Machine

variable {σ : Type} {m m' : Machine σ}

/-- Whether a handle refers to a live instance. -/
def Lives (x : Handle) (m : Machine σ) : Prop := (m.memory.instances.get? x).isSome

/-- Whether a handle is bound: it is in a global variable, or refers to the current instance. -/
def Bound (x : Handle) (m : Machine σ) : Prop := m.memory.Binds x ∨ m.context = some x

/-- Whether there is another copy of a handle: on the stack, in a field of a live instance, or in
the frame of a caller. -/
def Held (x : Handle) (m : Machine σ) : Prop :=
  .value (.inst (some x)) ∈ m.stack ∨ m.memory.instances.Holds x ∨
    some x ∈ m.frames.map (·.context)

instance (x : Handle) (m : Machine σ) : Decidable (m.Lives x) :=
  inferInstanceAs (Decidable ((m.memory.instances.get? x).isSome = true))

instance (x : Handle) (m : Machine σ) : Decidable (m.Bound x) :=
  inferInstanceAs (Decidable ((∃ st ∈ m.memory.globals, st.Holds x) ∨ m.context = some x))

instance (x : Handle) (m : Machine σ) : Decidable (m.Held x) :=
  inferInstanceAs (Decidable (Entry.value (.inst (some x)) ∈ m.stack ∨
    m.memory.instances.Holds x ∨ some x ∈ m.frames.map (·.context)))

/-- Whether there is any copy of a handle. -/
def Stores (x : Handle) (m : Machine σ) : Prop :=
  .value (.inst (some x)) ∈ m.stack ∨ m.memory.Holds x ∨ some x ∈ m.contexts

theorem stores_iff : m.Stores x ↔ m.Bound x ∨ m.Held x := by
  rw [Stores, Bound, Held, Memory.Holds, contexts, List.mem_cons, eq_comm (b := m.context)]
  grind

/-- What a script finds in a machine is a copy that is there. -/
theorem stores_of_found {v : Value} (h : Found m v) (hv : v = .inst (some x)) : m.Stores x := by
  cases h with
  | @popped e k c he hc =>
    cases e with
    | value v =>
      refine .inl ?_
      have hvalue : v = k.toValue c := by
        cases k <;> cases v <;> simp [content?, Value.content?, CellKind.toValue] at hc ⊢ <;>
          exact hc
      rw [← hv, ← hvalue]
      exact he
    | immediate n => cases k <;> simp [content?, CellKind.ofImmediate?] at hc <;> cases hv
    | reference r => exact .inr (.inl (Memory.holds_of_read (Option.some.inj hc) hv))
  | bound i =>
    have hb := Value.inst.inj hv
    rw [Memory.bound] at hb
    split at hb
    · cases hb
    · next st hst =>
      have hget : st.get .inst 0 = .ok (some x) := by
        rcases hg : st.get .inst 0 with e | c
        · rw [hg] at hb
          cases hb
        · rw [hg] at hb
          exact congrArg _ hb
      exact .inr (.inl (.inl ⟨st, Array.mem_of_getElem? hst, Storage.holds_of_get hget rfl⟩))

end Machine

end ScriptMachine
