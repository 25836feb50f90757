import ScriptMachine.Proofs.Moment
import ScriptMachine.Proofs.Possession
import ScriptMachine.Proofs.SymbolTable

/-!
# Shapes of storages

A storage is created with cells of one kind, and keeps their kind and their number for good. Writing
replaces the content of a cell, and so does freeing an instance. Binding an instance to a symbol
would replace the whole storage if that had no room for an instance, but a machine binds instances
to the symbols that define them and to its slots only, which have.

* `Storage.shape` – the kind and the number of the cells.
* `Script.HasSlots` – whether the slots of a script have room for an instance.
* `Instance.Fits` – whether an instance has the storages its class asks for.
* `Memory.Shaped` – whether all storages of a memory have the shape they were created with.
* `Machine.Evolves.fits`, `Machine.Evolves.shape_globals` – nothing changes that.
* `Machine.shaped_of_passes` – the storages at any moment of a run.
-/

namespace ScriptMachine

/-! ## Storages -/

namespace Storage

variable {st st' : Storage}

/-- The kind of the cells of a storage, and their number. -/
def shape (st : Storage) : Option CellKind × Nat := (st.kind?, st.size)

@[simp] theorem shape_ofCells (k : CellKind) (cells : Array k.Content) :
    (ofCells k cells).shape = (some k, cells.size) := by
  rw [shape, kind?_ofCells, size_ofCells]

theorem shape_of_cells? {k : CellKind} {cells : Array k.Content} (h : st.cells? k = some cells) :
    st.shape = (some k, cells.size) := by
  rw [← ofCells_of_cells? h, shape_ofCells]

/-- Writing a cell keeps the shape. -/
theorem shape_set {n : Nat} {v : CellValue} (h : st.set n v = .ok st') : st'.shape = st.shape := by
  rw [set] at h
  split at h
  · cases h
  · next cells hcells =>
    split at h
    · rw [← Except.ok.inj h, shape_ofCells, Array.size_setIfInBounds, shape_of_cells? hcells]
    · cases h

/-- Forgetting an instance keeps the shape. -/
theorem shape_forget (x : Handle) (st : Storage) : (st.forget x).shape = st.shape := by
  cases st with
  | insts cells => exact congrArg (Prod.mk _) Array.size_map
  | _ => rfl

/-- Binding an instance keeps the shape of a storage that has room for one. -/
theorem shape_bindCell {n : Nat} (x : Option Handle) (h : st.shape = (some .inst, n + 1)) :
    (Memory.bindCell x st).shape = st.shape := by
  cases st with
  | insts cells =>
    have hsize : 0 < cells.size := by
      rw [show cells.size = n + 1 from congrArg Prod.snd h]
      exact Nat.succ_pos n
    rw [Memory.bindCell, set]
    simp only [cells?, if_pos hsize]
    rw [shape_ofCells, Array.size_setIfInBounds]
    rfl
  | _ => cases congrArg Prod.fst h

/-- A variable that holds an instance has room for one at first. -/
theorem shape_ofSymbol_inst {s : Symbol} (ht : s.type = .inst) (hd : s.data = .none) :
    ∃ n, (ofSymbol s).shape = (some .inst, n + 1) := by
  refine ⟨max s.count.toNat 1 - 1, ?_⟩
  rw [ofSymbol, hd, ht]
  show (ofCells .inst (Array.replicate _ _)).shape = _
  rw [shape_ofCells, Array.size_replicate, Nat.sub_add_cancel (Nat.le_max_right _ _)]

end Storage

/-- A storage that gives way to one of its shape leaves the shapes of all as they are. -/
theorem map_shape_setIfInBounds {a : Array Storage} {i : Nat} {st st' : Storage}
    (hst : a[i]? = some st) (h : st'.shape = st.shape) :
    (a.setIfInBounds i st').map Storage.shape = a.map Storage.shape := by
  refine Array.ext_getElem? fun j => ?_
  rw [Array.getElem?_map, Array.getElem?_map, Array.getElem?_setIfInBounds]
  split
  · next hij =>
    subst hij
    obtain ⟨hi, rfl⟩ := Array.getElem?_eq_some_iff.1 hst
    rw [if_pos hi, hst, Option.map_some, Option.map_some, h]
  · rfl

/-! ## Scripts -/

/-- An instance with a body is a variable of its own. -/
theorem Symbol.type_of_isInstanceDefinition {s : Symbol} (h : s.isInstanceDefinition = true) :
    s.type = .inst ∧ s.isMember = false := by
  simp only [isInstanceDefinition, Bool.and_eq_true, beq_iff_eq, Bool.not_eq_true'] at h
  exact ⟨h.1.1, h.2⟩

namespace Script

variable {p : Script}

/-- Whether the slots of a script are variables that hold an instance, as those are that the loader
adds. -/
def HasSlots (p : Script) : Prop :=
  ∀ slot : GlobalSlot, ∃ s, p.symbolByIndex? (p.slotIndex slot.symbolName) = some s ∧
    s.type = .inst ∧ s.isMember = false

/-- The class that is found within a number of steps is found at its own index, unless it is where
the search began. -/
theorem symbolByIndex?_of_classWithin (hp : p.Numbered) {n : Nat} :
    ∀ {s cls : Symbol}, p.classWithin n s = some cls →
      cls.type = .cls ∧ (s.type ≠ .cls → p.symbolByIndex? cls.index = some cls) := by
  induction n with
  | zero => exact fun h => nomatch h
  | succ n ih =>
    intro s cls h
    rw [classWithin] at h
    split at h
    · next ht =>
      obtain rfl := Option.some.inj h
      exact ⟨ht, fun hs => absurd ht hs⟩
    · obtain ⟨i, -, h⟩ := Option.bind_eq_some_iff.1 h
      obtain ⟨u, hu, h⟩ := Option.bind_eq_some_iff.1 h
      obtain ⟨htype, hfound⟩ := ih h
      refine ⟨htype, fun _ => ?_⟩
      by_cases hut : u.type = .cls
      · -- the next symbol is the class
        cases n with
        | zero => cases h
        | succ n =>
          rw [classWithin, if_pos hut, Option.some.injEq] at h
          rw [← h, hp i u hu, hu]
      · exact hfound hut

end Script

/-! ## Instances -/

/-- Whether an instance has a storage for each member of its class, in the shape that the member
asks for, and no others. -/
def Instance.Fits (p : Script) (y : Instance) : Prop :=
  ∃ cls, p.symbolByIndex? y.cls = some cls ∧ cls.type = .cls ∧
    y.fields.map Storage.shape =
      ((p.membersOf cls).map fun s => (Storage.ofSymbol s).shape).toArray

namespace Memory

variable {m m' : Memory} {p : Script}

theorem classFor_eq_ok {s cls : Symbol} {tag : InstanceTag} (h : classFor p s tag = .ok cls) :
    s.isInstanceDefinition = true ∧ p.classOf? s = some cls := by
  rw [classFor] at h
  split at h
  · next hs =>
    split at h
    · cases h
    · next hcls =>
      split at h
      · exact ⟨hs, hcls.trans (congrArg some (Except.ok.inj h))⟩
      · cases h
  · cases h

/-- An instance fits its class when it is allocated. -/
theorem fits_freshInstance (hp : p.Numbered) {s cls : Symbol} {tag : InstanceTag}
    (h : classFor p s tag = .ok cls) : (freshInstance p cls).Fits p := by
  obtain ⟨hs, hcls⟩ := classFor_eq_ok h
  obtain ⟨htype, hfound⟩ := Script.symbolByIndex?_of_classWithin hp hcls
  have hne : s.type ≠ .cls := by
    rw [(Symbol.type_of_isInstanceDefinition hs).1]
    exact nofun
  refine ⟨cls, hfound hne, htype, ?_⟩
  rw [freshInstance, List.map_toArray, List.map_map]
  rfl

/-- Every live instance fits its class as long as new instances do: a write keeps the shapes. -/
theorem Step.fits (hp : p.Numbered) (h : m.Step p m')
    (hm : ∀ x y, m.instances.get? x = some y → y.Fits p) :
    ∀ x y, m'.instances.get? x = some y → y.Fits p := by
  intro x y hy
  cases h with
  | same | setSlot => exact hm x y hy
  | store h =>
    cases h with
    | dropped | global => exact hm x y hy
    | @field _ z _ _ _ _ hz hst hset =>
      -- the instance written to keeps its class, and its storages keep their shapes
      rcases Registry.eq_or_get?_of_put hy with rfl | hy
      · obtain ⟨cls, hcls, htype, hshape⟩ := hm _ z hz
        refine ⟨cls, hcls, htype, ?_⟩
        rw [← hshape]
        exact map_shape_setIfInBounds hst (Storage.shape_set hset)
      · exact hm x y hy
  | alloc _ h =>
    obtain ⟨cls, instances, hcls, hi, rfl⟩ := alloc_eq_ok h
    rcases Registry.eq_or_get?_of_insert hi hy with rfl | hy
    · exact fits_freshInstance hp hcls
    · exact hm x y hy
  | free h =>
    obtain ⟨instances, hi, rfl⟩ := free_eq_ok h
    exact hm x y (Registry.get?_of_remove hi hy)
  | markInitialized h =>
    obtain ⟨z, hz, rfl⟩ := markInitialized_eq_ok h
    rcases Registry.eq_or_get?_of_put hy with rfl | hy
    · exact hm _ z hz
    · exact hm x y hy

/-! ## Global variables -/

/-- The shapes that the global variables of a script are created with. -/
def initialShapes (p : Script) : Array (Option CellKind × Nat) :=
  p.symbols.map fun s => (initialStorage s).shape

/-- Binding an instance to a variable that holds one keeps the shapes. -/
theorem map_shape_bind {i : UInt32} {s : Symbol} (x : Option Handle)
    (hm : m.globals.map Storage.shape = initialShapes p) (hs : p.symbolByIndex? i = some s)
    (ht : s.type = .inst) (hmember : s.isMember = false) (hd : s.data = .none) :
    (m.bind i x).globals.map Storage.shape = initialShapes p := by
  rw [← hm]
  refine Array.ext_getElem? fun j => ?_
  rw [Array.getElem?_map, Array.getElem?_map, bind, Array.getElem?_modify]
  split
  · next hij =>
    subst hij
    rcases hst : m.globals[i.toNat]? with _ | st
    · rfl
    -- the storage has the shape that the symbol asks for, so it has room
    have hshape : st.shape = (initialStorage s).shape := by
      have h := congrArg (·[i.toNat]?) hm
      have hs : p.symbols[i.toNat]? = some s := hs
      simpa only [initialShapes, Array.getElem?_map, hst, hs, Option.map_some,
        Option.some.injEq] using h
    obtain ⟨n, hn⟩ := Storage.shape_ofSymbol_inst ht hd
    rw [initialStorage, hmember] at hshape
    exact congrArg some (Storage.shape_bindCell x (hshape.trans hn))
  · rfl

variable {enc : Text.Encoding} {bytes : List UInt8}

/-- Allocating an instance keeps the shapes, since the symbol it is bound to has room for it. -/
theorem map_shape_alloc (hload : Script.load enc bytes = .ok p) {key : SymbolKey} {s : Symbol}
    {tag : InstanceTag} {x : Handle} (hs : p.find key = .ok s)
    (h : m.alloc p s tag = .ok (x, m')) (hm : m.globals.map Storage.shape = initialShapes p) :
    m'.globals.map Storage.shape = initialShapes p := by
  obtain ⟨cls, instances, hcls, -, rfl⟩ := alloc_eq_ok h
  obtain ⟨hdef, -⟩ := classFor_eq_ok hcls
  obtain ⟨ht, hmember⟩ := Symbol.type_of_isInstanceDefinition hdef
  have hfound := Script.symbolByIndex?_of_isInstanceDefinition hload hs hdef
  exact map_shape_bind (m := { m with instances }) (some x) hm hfound ht hmember
    (Script.data_eq_none_of_load hload (Array.mem_of_getElem? hfound) ht)

/-- Every step keeps the shapes of the global variables of a loaded script, if its slots have room
for an instance. -/
theorem Step.shape_globals (hload : Script.load enc bytes = .ok p) (hslots : p.HasSlots)
    (h : m.Step p m') (hm : m.globals.map Storage.shape = initialShapes p) :
    m'.globals.map Storage.shape = initialShapes p := by
  cases h with
  | same => exact hm
  | store h =>
    cases h with
    | dropped | field => exact hm
    | global hst hset =>
      rw [← hm]
      exact map_shape_setIfInBounds hst (Storage.shape_set hset)
  | alloc hs h => exact map_shape_alloc hload hs h hm
  | free h =>
    obtain ⟨instances, hi, rfl⟩ := free_eq_ok h
    rw [← hm, Array.map_map]
    exact congrArg (Array.map · m.globals) (funext fun st => Storage.shape_forget _ st)
  | setSlot slot x =>
    -- binding could replace a storage, were it not for what the slots are
    obtain ⟨s, hs, ht, hmember⟩ := hslots slot
    exact map_shape_bind x hm hs ht hmember
      (Script.data_eq_none_of_load hload (Array.mem_of_getElem? hs) ht)
  | markInitialized h =>
    rw [globals_markInitialized h, hm]

/-- Whether all storages of a memory have the shape they were created with: there is one for each
symbol of the script, of the kind and size that the symbol asks for, and a live instance has one for
each member of its class. -/
structure Shaped (p : Script) (m : Memory) : Prop where
  size : m.globals.size = p.symbols.size
  globals : ∀ i (hm : i < m.globals.size) (hp : i < p.symbols.size),
    m.globals[i].kind? = (initialStorage p.symbols[i]).kind? ∧
      m.globals[i].size = (initialStorage p.symbols[i]).size
  instances : ∀ x y, m.instances.get? x = some y →
    ∃ cls, p.symbolByIndex? y.cls = some cls ∧ cls.type = .cls ∧
      y.fields.size = (p.membersOf cls).length ∧
        ∀ i (hy : i < y.fields.size) (hp : i < (p.membersOf cls).length),
          y.fields[i].kind? = (Storage.ofSymbol (p.membersOf cls)[i]).kind? ∧
            y.fields[i].size = (Storage.ofSymbol (p.membersOf cls)[i]).size

/-- Storages that have their shapes one by one have them in all. -/
theorem shaped_of_shapes (hm : m.globals.map Storage.shape = initialShapes p)
    (hinst : ∀ x y, m.instances.get? x = some y → y.Fits p) : Shaped p m where
  size := by
    have h := congrArg Array.size hm
    rwa [Array.size_map, initialShapes, Array.size_map] at h
  globals i hi hp := by
    have h := congrArg (·[i]?) hm
    simp only [initialShapes, Array.getElem?_map, Array.getElem?_eq_getElem hi,
      Array.getElem?_eq_getElem hp, Option.map_some, Option.some.injEq] at h
    exact Prod.mk.inj h
  instances x y hy := by
    obtain ⟨cls, hcls, htype, hshape⟩ := hinst x y hy
    refine ⟨cls, hcls, htype, ?_, fun i hi hp => ?_⟩
    · simpa using congrArg Array.size hshape
    · have h := congrArg (·[i]?) hshape
      simp only [Array.getElem?_map, List.getElem?_toArray, List.getElem?_map,
        Array.getElem?_eq_getElem hi, List.getElem?_eq_getElem hp, Option.map_some,
        Option.some.injEq] at h
      exact Prod.mk.inj h

end Memory

/-! ## Machines -/

/-- A script with a class of one member and an instance whose body writes to it. The slots are added
by the loader. -/
def Script.figure : Script :=
  .ofParts 50
    [.blank "" 0 .cls none, { Symbol.blank "X" 1 .int (some 0) with flags := .member },
      { Symbol.blank "" 2 .inst (some 0) with flags := .const }]
    #[64, 7, 0, 0, 0, 65, 1, 0, 0, 0, 9, 60]

/-- The script as it is compiled. -/
def Script.figureBytes : List UInt8 :=
  50 :: [3, 0, 0, 0, 0, 0, 0x4001, 0, 0, 0, 0, 0, 0, 0xFFFFFFFF, 1].flatMap LittleEndian.encode ++
    [88, 10] ++ [0, 0x42001, 0, 0, 0, 0, 0, 0, 0, 0, 0x17001, 0, 0, 0, 0, 0, 0, 0, 12].flatMap
      LittleEndian.encode ++
    [64, 7, 0, 0, 0, 65, 1, 0, 0, 0, 9, 60]

set_option maxRecDepth 1000 in
theorem Script.load_figureBytes : load .windows1252 figureBytes = .ok figure := rfl

/-- Host code that creates the instance of the script and binds it to a slot. -/
def Routine.creating : Routine Unit :=
  .create (.index 2) .unknown fun r => .ask (.setGlobal .hero r.toOption) fun _ =>
    .finish (.ok .void)

namespace Machine

variable {σ : Type} {m : Machine σ} {enc : Text.Encoding} {bytes : List UInt8} {p : Script}
  {c : Config}

/-- Every live instance of a machine fits its class. -/
theorem Evolves.fits (hload : Script.load enc bytes = .ok p) (h : Evolves (new p c) m) :
    ∀ x y, m.memory.instances.get? x = some y → y.Fits p := by
  refine h.keeps_memory (Q := fun n => ∀ x y, n.instances.get? x = some y → y.Fits p) ?_
    fun x y hy => ?_
  · exact fun hs => hs.fits (Script.numbered_of_load hload)
  · cases Registry.get?_eq_some.1 hy

/-- The global variables of a machine have the shapes they were created with. -/
theorem Evolves.shape_globals (hload : Script.load enc bytes = .ok p) (hslots : p.HasSlots)
    (h : Evolves (new p c) m) :
    m.memory.globals.map Storage.shape = Memory.initialShapes p := by
  refine h.keeps_memory (Q := (·.globals.map Storage.shape = Memory.initialShapes p)) ?_ ?_
  · exact fun hs => hs.shape_globals hload hslots
  · exact Array.map_map

/-- Take a loaded script whose slots are variables that hold an instance, and any moment of a run on
it, whatever the host, its callbacks and the script do. Every storage has the kind and the number of
cells it was created with: there is one for each symbol, and each live instance has one for each
member of its class. -/
theorem shaped_of_passes (hload : Script.load enc bytes = .ok p) (hslots : p.HasSlots)
    {n steps : Nat} {x : Routine σ} {host : σ} {t : Moment σ}
    (h : Passes .any (.nested n steps) ⟨.routine x, ⟨host, new p c⟩⟩ t) :
    t.world.machine.memory.Shaped p :=
  Memory.shaped_of_shapes (Evolves.shape_globals hload hslots h.evolves)
    (Evolves.fits hload h.evolves)

/-- The storages once an instance has been created and bound to a slot. -/
theorem shaped_of_creating :
    ∃ o w, Routine.run (.nested 1 5) .creating ⟨(), new .figure .default⟩ = some (o, w) ∧
      w.machine.memory.instances.live = 1 ∧ w.machine.memory.Shaped .figure := by
  have hslots : Script.figure.HasSlots := by
    intro slot
    cases slot <;> exact ⟨_, rfl, rfl, rfl⟩
  have hrun : ∃ p ∈ Routine.run (.nested 1 5) .creating ⟨(), new .figure .default⟩,
      p.2.machine.memory.instances.live = 1 := by decide +kernel
  obtain ⟨⟨o, w⟩, hrun, hlive⟩ := hrun
  exact ⟨o, w, hrun, hlive,
    shaped_of_passes Script.load_figureBytes hslots
      (Routine.passes_of_run _ (Routine.heeds_any _ _) hrun)⟩

end Machine

end ScriptMachine
