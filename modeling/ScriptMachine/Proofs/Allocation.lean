import ScriptMachine.Proofs.Cells
import ScriptMachine.Proofs.Handles
import ScriptMachine.Proofs.Registry
import ScriptMachine.Proofs.Slots

/-!
# What allocating and freeing change

An instance that is allocated is one more in the registry and in the first cell of the symbol that
defines it; one that is freed is gone from the registry, from the global cells that refer to it and
from the context. Nothing else changes, and nothing at all if the operation fails.

* `Storage.cleared` – what the members of an instance hold at first.
* `Memory.HasRoom` – whether an instance can be bound to a symbol without its storage giving way.
* `Machine.Orderly` – what the operations rely on, which holds of every machine.
* `Machine.Allocates`, `Machine.Frees` – what an operation changes, and what it leaves alone.
* `Machine.alloc_and_free` – the operations do this, or nothing.
-/

namespace ScriptMachine

open Registry (Sound)

/-! ## New instances -/

/-- The zeros that the type and the count of a symbol ask for. -/
def Storage.cleared (s : Symbol) : Storage :=
  match s.kind?.bind CellKind.ofKind? with
  | some k => zeros k (max s.count.toNat 1)
  | none => .empty

theorem Storage.ofSymbol_eq_cleared {s : Symbol} (h : s.data = .none) :
    ofSymbol s = cleared s := by
  rw [ofSymbol, h, cleared, Symbol.kind?]
  cases s.type with
  | _ => rfl

/-- The members of a class are symbols of the script. -/
theorem Script.mem_of_mem_membersOf {p : Script} {cls a : Symbol} (h : a ∈ p.membersOf cls) :
    a ∈ p.symbols := by
  obtain ⟨n, hn⟩ := List.getElem?_of_mem h
  obtain ⟨hlength, -⟩ := List.getElem?_eq_some_iff.1 hn
  rw [getElem?_membersOf hlength] at hn
  exact Array.mem_of_getElem? hn

namespace Memory

variable {m m' : Memory} {p : Script} {i j : UInt32} {h : Handle}

/-- The field of a member starts with zeros, since members have no initial value. -/
theorem getElem?_fields_freshInstance {enc : Text.Encoding} {bytes : List UInt8}
    (hload : Script.load enc bytes = .ok p) {cls a : Symbol} {n : Nat}
    (ha : (p.membersOf cls)[n]? = some a) (hm : a.isMember = true) :
    (freshInstance p cls).fields[n]? = some (Storage.cleared a) := by
  have hmem := Script.mem_of_mem_membersOf (List.mem_of_getElem? ha)
  have hdata := Script.data_eq_none_of_isMember hload hmem hm
  rw [freshInstance, List.getElem?_toArray, List.getElem?_map, ha, Option.map_some,
    Storage.ofSymbol_eq_cleared hdata]

/-! ## Room for instances -/

/-- Whether the storage of a symbol has cells for instances, and at least one. -/
def HasRoom (m : Memory) (i : UInt32) : Prop :=
  ∃ st n, m.globals[i.toNat]? = some st ∧ st.shape = (some .inst, n + 1)

/-- A storage that gives way to one of its shape leaves the room there is. -/
theorem HasRoom.setIfInBounds {n : Nat} {st st' : Storage} (hr : m.HasRoom i)
    (hst : m.globals[n]? = some st) (hshape : st'.shape = st.shape) :
    HasRoom { m with globals := m.globals.setIfInBounds n st' } i := by
  obtain ⟨st₀, k, hst₀, hk⟩ := hr
  by_cases hn : n = i.toNat
  · obtain rfl := hn
    obtain ⟨hi, rfl⟩ := Array.getElem?_eq_some_iff.1 hst
    rw [Array.getElem?_eq_getElem hi, Option.some.injEq] at hst₀
    exact ⟨st', k, Array.getElem?_setIfInBounds_self_of_lt hi, by rw [hshape, hst₀, hk]⟩
  · exact ⟨st₀, k, (Array.getElem?_setIfInBounds_ne hn).trans hst₀, hk⟩

/-- So does an instance that is bound to a symbol, there as elsewhere. -/
theorem HasRoom.bind (hr : m.HasRoom i) (j : UInt32) (x : Option Handle) :
    (m.bind j x).HasRoom i := by
  obtain ⟨st, k, hst, hk⟩ := hr
  by_cases hj : j.toNat = i.toNat
  · refine ⟨bindCell x st, k, ?_, (Storage.shape_bindCell x hk).trans hk⟩
    rw [Memory.bind, Array.getElem?_modify, if_pos hj, hst]
    rfl
  · refine ⟨st, k, ?_, hk⟩
    rw [Memory.bind, Array.getElem?_modify, if_neg hj, hst]

/-- No step of the memory takes the room away. -/
theorem Step.hasRoom (h : m.Step p m') (hr : m.HasRoom i) : m'.HasRoom i := by
  cases h with
  | same => exact hr
  | store h =>
    cases h with
    | dropped | field => exact hr
    | global hst hset => exact hr.setIfInBounds hst (Storage.shape_set hset)
  | alloc hs h =>
    obtain ⟨cls, instances, -, -, rfl⟩ := alloc_eq_ok h
    exact HasRoom.bind (m := { m with instances }) hr _ _
  | @free x _ h =>
    obtain ⟨instances, -, rfl⟩ := free_eq_ok h
    obtain ⟨st, k, hst, hk⟩ := hr
    refine ⟨st.forget x, k, ?_, (Storage.shape_forget x st).trans hk⟩
    rw [Array.getElem?_map, hst, Option.map_some]
  | setSlot slot x => exact hr.bind _ x
  | markInitialized h =>
    obtain ⟨y, -, rfl⟩ := markInitialized_eq_ok h
    exact hr

/-- The symbols that define instances have room for them at first. -/
theorem hasRoom_ofScript {enc : Text.Encoding} {bytes : List UInt8} {limit : Nat}
    (hload : Script.load enc bytes = .ok p) {key : SymbolKey} {s : Symbol}
    (hs : p.find key = .ok s) (hinst : s.isInstanceDefinition = true) :
    (ofScript p limit).HasRoom s.index := by
  have hfound := Script.symbolByIndex?_of_isInstanceDefinition hload hs hinst
  obtain ⟨htype, hmember⟩ := Symbol.type_of_isInstanceDefinition hinst
  obtain ⟨n, hn⟩ := Storage.shape_ofSymbol_inst htype
    (Script.data_eq_none_of_load hload (Script.mem_of_find hs) htype)
  refine ⟨Storage.ofSymbol s, n, ?_, hn⟩
  have hfound : p.symbols[s.index.toNat]? = some s := hfound
  rw [ofScript, Array.getElem?_map, hfound, Option.map_some, initialStorage, hmember]
  rfl

/-! ## Global cells -/

/-- What a cell of a global variable reads under a kind, if there is such a variable. -/
def globalCell (m : Memory) (k : CellKind) (j n : Nat) : Option (Except CellFault k.Content) :=
  (m.globals[j]?).map (·.get k n)

/-- An instance that is bound to a symbol with room is in its first cell. -/
theorem globalCell_bind_self (hr : m.HasRoom i) (x : Option Handle) :
    (m.bind i x).globalCell .inst i.toNat 0 = some (.ok x) := by
  obtain ⟨st, n, hst, hn⟩ := hr
  rw [globalCell, Memory.bind, Array.getElem?_modify, if_pos rfl, hst]
  exact congrArg some (get_bindCell x st)

/-- No other cell sees it. -/
theorem globalCell_bind_of_ne (hr : m.HasRoom i) (x : Option Handle) {k : CellKind} {j n : Nat}
    (hne : k ≠ .inst ∨ j ≠ i.toNat ∨ n ≠ 0) :
    (m.bind i x).globalCell k j n = m.globalCell k j n := by
  rw [globalCell, globalCell, Memory.bind, Array.getElem?_modify]
  by_cases hj : i.toNat = j
  · obtain rfl := hj
    obtain ⟨st, n', hst, hn'⟩ := hr
    have hother : k ≠ .inst ∨ n ≠ 0 := hne.imp_right fun hne => hne.resolve_left fun he => he rfl
    rw [if_pos rfl, hst]
    exact congrArg some (Storage.get_set_of_ne (Storage.set_zero_eq_bindCell x hn') hother)
  · rw [if_neg hj]

/-- The global cells that refer to an instance are null once it is forgotten. -/
theorem globalCell_forget_self {instances : Registry} {j n : Nat}
    (hc : m.globalCell .inst j n = some (.ok (some h))) :
    globalCell ⟨m.globals.map (Storage.forget h), instances⟩ .inst j n = some (.ok none) := by
  obtain ⟨st, hst, hget⟩ := Option.map_eq_some_iff.1 hc
  rw [globalCell, Array.getElem?_map, hst]
  exact congrArg some (Storage.get_forget_self hget)

/-- The others read as before. -/
theorem globalCell_forget_of_ne {instances : Registry} {k : CellKind} {j n : Nat}
    (hne : k ≠ .inst ∨ m.globalCell .inst j n ≠ some (.ok (some h))) :
    globalCell ⟨m.globals.map (Storage.forget h), instances⟩ k j n = m.globalCell k j n := by
  rw [globalCell, globalCell, Array.getElem?_map]
  cases hst : m.globals[j]? with
  | none => rfl
  | some st =>
    refine congrArg some (Storage.get_forget_of_ne (hne.imp_right fun hne he => hne ?_))
    rw [globalCell, hst, Option.map_some, he]

end Memory

namespace Machine

variable {σ : Type} {m m' : Machine σ} {h : Handle} {tag : InstanceTag}

/-! ## What the operations rely on -/

/-- Whether a machine runs a loaded script, its registry keeps account of its slots, all of which
can be named, and its instances have room in the symbols that define them. -/
structure Orderly (m : Machine σ) : Prop where
  loaded : ∃ enc bytes, Script.load enc bytes = .ok m.script
  sound : Sound m.memory.instances
  limit_le : m.memory.instances.limit ≤ 2 ^ 32
  room : ∀ key s, m.script.find key = .ok s → s.isInstanceDefinition = true →
    m.memory.HasRoom s.index

/-- Every machine is so, whatever happened to it. -/
theorem Reachable.orderly (hm : Reachable m) (hlimit : m.config.maxInstances ≤ 2 ^ 32) :
    Orderly m := by
  obtain ⟨enc, bytes, p, c, hload, hev⟩ := hm
  have hscript : m.script = p := hev.script_eq
  have hconfig : m.config = c := hev.config_eq
  rw [hconfig] at hlimit
  obtain ⟨hsound, hlimit⟩ := hev.sound hlimit
  refine ⟨⟨enc, bytes, hscript ▸ hload⟩, hsound, hlimit, fun key s hs hinst => ?_⟩
  rw [hscript] at hs
  exact hev.keeps_memory (Q := (·.HasRoom s.index)) (fun hstep => hstep.hasRoom)
    (Memory.hasRoom_ofScript hload hs hinst)

/-! ## Allocating -/

/-- Whether one machine becomes another by an instance of a class being allocated for a symbol. -/
structure Allocates (s cls : Symbol) (tag : InstanceTag) (h : Handle) (m m' : Machine σ) :
    Prop where
  symbol_eq : h.symbol = s.index
  tag_eq : h.tag = tag
  /-- The slot of the new instance held none. -/
  vacant : ∀ k : Handle, k.slot = h.slot → m.memory.instances.get? k = none
  /-- The new instance is of the class, its body has not run, and its members are cleared. -/
  fresh : ∃ x, m'.memory.instances.get? h = some x ∧ x.cls = cls.index ∧ x.state = .allocated ∧
    x.fields.size = (m.script.membersOf cls).length ∧
    ∀ (n : Nat) (a : Symbol), (m.script.membersOf cls)[n]? = some a → a.isMember = true →
      x.fields[n]? = some (Storage.cleared a)
  live : m'.memory.instances.live = m.memory.instances.live + 1
  limit : m'.memory.instances.limit = m.memory.instances.limit
  /-- No other handle sees it. -/
  others : ∀ k : Handle, k.tenancy ≠ h.tenancy →
    m'.memory.instances.get? k = m.memory.instances.get? k
  bound : m'.memory.globalCell .inst s.index.toNat 0 = some (.ok (some h))
  /-- No other cell changes. -/
  cells : ∀ k j n, k ≠ CellKind.inst ∨ j ≠ s.index.toNat ∨ n ≠ 0 →
    m'.memory.globalCell k j n = m.memory.globalCell k j n
  /-- Nothing outside of the memory changes but the log. -/
  rest : m' = { m with memory := m'.memory, log := .allocated s.name tag h.slot :: m.log }

theorem Orderly.allocates (ho : Orderly m) {key : SymbolKey}
    (ha : alloc key tag m = (.ok h, m')) :
    ∃ s cls, m.script.find key = .ok s ∧ s.isInstanceDefinition = true ∧
      m.script.classOf? s = some cls ∧ Allocates s cls tag h m m' := by
  rcases alloc_eq ha with ⟨s, x, memory, hs, hm, hx, rfl⟩ | ⟨e, he, -⟩
  · obtain rfl := Except.ok.inj hx
    obtain ⟨cls, instances, hcls, hi, rfl⟩ := Memory.alloc_eq_ok hm
    obtain ⟨enc, bytes, hload⟩ := ho.loaded
    obtain ⟨hsymbol, htag⟩ := Registry.handle_of_insert hi
    obtain ⟨hlive, hlimit⟩ := Registry.live_insert hi
    obtain ⟨hdef, hclass⟩ := Memory.classFor_eq_ok hcls
    have hroom : Memory.HasRoom { m.memory with instances } s.index := ho.room key s hs hdef
    refine ⟨s, cls, hs, hdef, hclass, ?_⟩
    exact {
      symbol_eq := hsymbol
      tag_eq := htag
      vacant := fun k hk => Registry.get?_insert_before ho.sound ho.limit_le hi hk
      fresh := ⟨_, Registry.get?_insert ho.sound ho.limit_le hi, rfl, rfl, by
          rw [Memory.freshInstance, List.size_toArray, List.length_map], fun n a hn hmember =>
        Memory.getElem?_fields_freshInstance hload hn hmember⟩
      live := hlive
      limit := hlimit
      others := fun k hk => Registry.get?_insert_of_ne ho.sound ho.limit_le hi hk
      bound := Memory.globalCell_bind_self hroom _
      cells := fun k j n hne => Memory.globalCell_bind_of_ne hroom _ hne
      rest := rfl }
  · cases he

/-! ## Freeing -/

/-- Whether one machine becomes another by an instance being freed. -/
structure Frees (h : Handle) (m m' : Machine σ) : Prop where
  was_live : ∃ x, m.memory.instances.get? h = some x
  stale : ∀ k : Handle, k.tenancy = h.tenancy →
    m'.memory.instances.get k = .error .staleInstance
  /-- The other instances stay, and so do their fields. -/
  others : ∀ k : Handle, k.tenancy ≠ h.tenancy →
    m'.memory.instances.get? k = m.memory.instances.get? k
  live : m'.memory.instances.live + 1 = m.memory.instances.live
  limit : m'.memory.instances.limit = m.memory.instances.limit
  /-- The global cells that held the instance are null. -/
  cleared : ∀ j n, m.memory.globalCell .inst j n = some (.ok (some h)) →
    m'.memory.globalCell .inst j n = some (.ok none)
  /-- No other cell changes. -/
  cells : ∀ k j n, k ≠ CellKind.inst ∨ m.memory.globalCell .inst j n ≠ some (.ok (some h)) →
    m'.memory.globalCell k j n = m.memory.globalCell k j n
  context : m'.context = if m.context = some h then none else m.context
  /-- Nothing else changes but the log. -/
  rest : m' = { m with
    memory := m'.memory
    context := m'.context
    log := .freed h.symbol h.slot :: m.log }

theorem frees_of_free (hsound : Sound m.memory.instances) (hf : free h m = (.ok (), m')) :
    Frees h m m' := by
  rcases free_eq hf with ⟨memory, hm, -, rfl⟩ | ⟨e, he, -⟩
  · obtain ⟨instances, hi, rfl⟩ := Memory.free_eq_ok hm
    obtain ⟨hlive, hlimit⟩ := hsound.live_remove hi
    exact {
      was_live := (Registry.remove_eq_ok hsound hi).1
      stale := fun k hk => by
        rw [Registry.get_congr hk]
        exact Registry.get_eq_error.2 (Registry.get?_remove hsound hi)
      others := fun k hk => Registry.get?_remove_of_ne hsound hi hk
      live := hlive
      limit := hlimit
      cleared := fun j n hc => Memory.globalCell_forget_self hc
      cells := fun k j n hne => Memory.globalCell_forget_of_ne hne
      context := rfl
      rest := rfl }
  · cases he

/-! ## Both operations -/

/-- Take any machine whose registry keeps account of its slots, as all do with at most 2 ^ 32
instances. Allocating and freeing an instance change what they should and nothing else, and nothing
at all if they fail. -/
theorem alloc_and_free :
    (∀ m : Machine σ, Reachable m → m.config.maxInstances ≤ 2 ^ 32 → Orderly m) ∧
    ∀ m : Machine σ, Orderly m →
      (∀ key tag e m', alloc key tag m = (.error e, m') → m' = m) ∧
      (∀ key tag h m', alloc key tag m = (.ok h, m') →
        ∃ s cls, m.script.find key = .ok s ∧ s.isInstanceDefinition = true ∧
          m.script.classOf? s = some cls ∧ Allocates s cls tag h m m') ∧
      (∀ h e m', free h m = (.error e, m') → m' = m) ∧
      ∀ h m', free h m = (.ok (), m') → Frees h m m' := by
  refine ⟨fun m hm hlimit => hm.orderly hlimit, fun m ho => ⟨?_, ?_, ?_, ?_⟩⟩
  · intro key tag e m' ha
    rcases alloc_eq ha with ⟨s, x, memory, -, -, hx, -⟩ | ⟨e, -, rfl⟩
    · cases hx
    · rfl
  · exact fun key tag h m' ha => ho.allocates ha
  · intro h e m' hf
    rcases free_eq hf with ⟨memory, -, hx, -⟩ | ⟨e, -, rfl⟩
    · cases hx
    · rfl
  · exact fun h m' hf => frees_of_free ho.sound hf

/-- The handle that is issued for the instance of a script with one class. -/
def figureHandle : Handle := ⟨0, 0, 2, .unknown⟩

/-- A machine once the instance of its script is allocated. -/
def figureHeld : Machine Unit := (alloc (.index 2) .unknown (new .figure .default)).2

/-- The machine once it is freed. -/
def figureFreed : Machine Unit := (free figureHandle figureHeld).2

theorem reachable_figure : Reachable (new .figure .default : Machine Unit) :=
  ⟨.windows1252, Script.figureBytes, .figure, .default, Script.load_figureBytes, .refl⟩

theorem alloc_figure : alloc (.index 2) .unknown (new .figure .default) =
    (.ok figureHandle, figureHeld) := rfl

theorem reachable_figureHeld : Reachable figureHeld :=
  reachable_figure.evolves (Edits.evolves (keeps_alloc _ _ _ _ _ alloc_figure))

/-- An instance is allocated, freed, and freed again, which fails. -/
theorem alloc_and_free_figure :
    Reachable (new .figure .default : Machine Unit) ∧ Orderly figureHeld ∧
      alloc (.index 2) .unknown (new .figure .default) = (.ok figureHandle, figureHeld) ∧
      (∃ s cls, Allocates s cls .unknown figureHandle (new .figure .default) figureHeld) ∧
      free figureHandle figureHeld = (.ok (), figureFreed) ∧
      Frees figureHandle figureHeld figureFreed ∧
      ∃ e, (free figureHandle figureFreed).1 = .error e ∧
        (free figureHandle figureFreed).2 = figureFreed := by
  obtain ⟨horderly, hlaws⟩ := alloc_and_free (σ := Unit)
  have hfree : free figureHandle figureHeld = (.ok (), figureFreed) := Prod.ext rfl rfl
  have hfreed : Reachable figureFreed := reachable_figureHeld.evolves
    (Edits.evolves ((governs_edits .any).free rfl hfree))
  have hagain : free figureHandle figureFreed =
      (.error .staleInstance, (free figureHandle figureFreed).2) := Prod.ext rfl rfl
  have hheld := horderly _ reachable_figureHeld (by decide)
  obtain ⟨-, hallocates, -⟩ := hlaws _ (horderly _ reachable_figure (by decide))
  obtain ⟨-, -, -, hfrees⟩ := hlaws _ hheld
  obtain ⟨-, -, hfails, -⟩ := hlaws _ (horderly _ hfreed (by decide))
  obtain ⟨s, cls, -, -, -, ha⟩ := hallocates _ _ _ _ alloc_figure
  exact ⟨reachable_figure, hheld, alloc_figure, ⟨s, cls, ha⟩, hfree, hfrees _ _ hfree, _, rfl,
    hfails _ _ _ hagain⟩

end Machine

end ScriptMachine
