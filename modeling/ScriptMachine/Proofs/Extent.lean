import Mathlib.Logic.Relation
import ScriptMachine.Proofs.Offset

/-!
# How many elements a variable has

A variable is created with as many elements as its symbol declares, and at least with one. The
loader fills them from what is stored, members of instances start with zeros; either way the number
is the one that is declared. The exception is a global variable that holds a function: a script
stores one word for it, and it has one element whatever it declares.

* `Symbol.extent` – the number of elements.
* `Symbol.Sized` – whether the storage of a symbol has so many cells, of the kind of the symbol.
* `Script.sized_of_load` – the symbols of a loaded script are so.
* `Machine.Spans` – which elements of a variable can be read.
* `Machine.index_bounds` – so many elements can be read, and no others.
-/

namespace ScriptMachine

/-- The kind of the cells that a symbol asks for, if its type has one. -/
def Symbol.cellKind? (s : Symbol) : Option CellKind := s.kind?.bind CellKind.ofKind?

/-- The number of elements a variable has. -/
def Symbol.extent (s : Symbol) : Nat :=
  if s.type = .func ∧ s.isConst = false ∧ s.isMember = false then 1 else max s.count.toNat 1

/-! ## Storages -/

namespace Storage

variable {st : Storage} {k : CellKind} {n j : Nat}

theorem exists_ofCells (h : st.shape = (some k, n)) :
    ∃ cells : Array k.Content, st = ofCells k cells ∧ cells.size = n := by
  obtain ⟨hkind, hsize⟩ := Prod.mk.inj h
  cases st with
  | empty => cases hkind
  | ints cells | floats cells | strings cells | insts cells =>
    obtain rfl := Option.some.inj hkind
    exact ⟨cells, rfl, hsize⟩

/-- A cell within a storage can be read under the kind of the storage. -/
theorem get_of_lt (h : st.shape = (some k, n)) (hj : j < n) : ∃ c, st.get k j = .ok c := by
  obtain ⟨cells, rfl, rfl⟩ := exists_ofCells h
  rw [get_ofCells, Array.getElem?_eq_getElem hj]
  exact ⟨_, rfl⟩

/-- There is no cell behind the last one. -/
theorem get_of_le (h : st.shape = (some k, n)) (hj : n ≤ j) :
    st.get k j = .error (.outOfRange n) := by
  obtain ⟨cells, rfl, rfl⟩ := exists_ofCells h
  rw [get_ofCells, Array.getElem?_eq_none hj]

@[simp] theorem shape_zeros (k : CellKind) (n : Nat) : (zeros k n).shape = (some k, n) := by
  rw [zeros, shape_ofCells, Array.size_replicate]

/-- A symbol without an initial value starts with as many zeros as it declares. -/
theorem shape_cleared {s : Symbol} (hk : s.cellKind? = some k) :
    (cleared s).shape = (some k, max s.count.toNat 1) := by
  have hkind : s.kind?.bind CellKind.ofKind? = some k := hk
  rw [cleared, hkind]
  exact shape_zeros k _

end Storage

/-! ## Symbols of loaded scripts -/

/-- A reader that is run a number of times reads as many items. -/
theorem Reader.ensures_times {α : Type} (x : Reader α) (n : Nat) :
    Ensures (times x n) (·.length = n) := by
  induction n with
  | zero => exact .pure rfl
  | succ n ih => exact .after fun a => .bind ih fun l hl => .pure (congrArg (· + 1) hl)

open Reader (Ensures ensures_times)

namespace Symbol

/-- Whether the storage of a symbol has the cells that the symbol asks for. -/
def Sized (s : Symbol) : Prop :=
  ∀ k, s.cellKind? = some k → (Storage.ofSymbol s).shape = (some k, s.extent)

/-- A symbol is so if it has no initial value, unless it is a variable that holds a function. -/
theorem sized_of_none {s : Symbol} (hd : s.data = .none)
    (hf : ¬(s.type = .func ∧ s.isConst = false ∧ s.isMember = false)) : s.Sized := by
  intro k hk
  rw [Storage.ofSymbol_eq_cleared hd, extent, if_neg hf, Storage.shape_cleared hk]

/-- The initial values of a symbol of a kind; instances have none. -/
def initialValues : (k : CellKind) → List k.Content → SymbolData
  | .int, l => .ints l
  | .float, l => .floats l
  | .string, l => .strings l
  | .inst, _ => .none

/-- A symbol starts with its initial values. If there are none, one zero takes their place. -/
theorem shape_ofSymbol_initialValues {s : Symbol} {k : CellKind} {l : List k.Content}
    (hk : s.cellKind? = some k) (hinst : k ≠ .inst) (hd : s.data = initialValues k l)
    (hl : l = [] → s.count.toNat = 0) :
    (Storage.ofSymbol s).shape = (some k, max l.length 1) := by
  cases l with
  | nil =>
    have hzeros : Storage.ofSymbol s = Storage.cleared s := by
      rw [Storage.ofSymbol, hd, Storage.cleared, Symbol.kind?]
      cases k with
      | inst => exact absurd rfl hinst
      | _ => cases s.type <;> rfl
    rw [hzeros, Storage.shape_cleared hk, hl rfl]
    rfl
  | cons v l =>
    rw [List.length_cons, Nat.max_eq_left (Nat.succ_pos _), Storage.ofSymbol, hd]
    cases k with
    | inst => exact absurd rfl hinst
    | _ => rfl

/-- A symbol whose initial values are as many as it declares has them as its elements. -/
theorem sized_of_length {s : Symbol} {k : CellKind} {l : List k.Content}
    (hk : s.cellKind? = some k) (hinst : k ≠ .inst) (hd : s.data = initialValues k l)
    (ht : s.type ≠ .func) (hl : l.length = s.count.toNat) : s.Sized := by
  intro k' hk'
  obtain rfl := Option.some.inj (hk.symm.trans hk')
  rw [extent, if_neg fun h => ht h.1, ← hl]
  exact shape_ofSymbol_initialValues hk hinst hd fun h => by rw [← hl, h, List.length_nil]

/-- What a payload makes of the symbols it is read for. -/
def Sizes (type : DataType) (flags : SymbolFlags) (count : UInt32) (a : Payload) : Prop :=
  ∀ s : Symbol, s.type = type → s.flags = flags → s.count = count → s.data = a.data → s.Sized

theorem sizes_times (k : CellKind) (type : DataType) (flags : SymbolFlags) (count : UInt32)
    (hk : type.kind?.bind CellKind.ofKind? = some k) (hinst : k ≠ .inst) (ht : type ≠ .func)
    (x : Reader k.Content) :
    Ensures (Reader.times x count.toNat >>= fun l =>
      pure { Payload.none with data := initialValues k l }) (Sizes type flags count) := by
  refine .bind (ensures_times x _) fun l hl => .pure ?_
  rintro s rfl rfl rfl hd
  exact sized_of_length hk hinst hd ht hl

/-- A payload has the initial values that the type, the flags and the count of its symbol ask
for. -/
theorem readOwnPayload_sizes (enc : Text.Encoding) (type : DataType) (flags : SymbolFlags)
    (count : UInt32) :
    Ensures (readOwnPayload enc type flags count) (Sizes type flags count) := by
  rw [readOwnPayload]
  split
  · next hm =>
    refine .pure fun s _ hflags _ hd => sized_of_none hd fun hf => ?_
    rw [isMember, hflags, hm] at hf
    cases hf.2.2
  next hm =>
  cases type with
  | float => exact sizes_times .float .float flags count rfl (by decide) (by decide) _
  | int => exact sizes_times .int .int flags count rfl (by decide) (by decide) _
  | string => exact sizes_times .string .string flags count rfl (by decide) (by decide) _
  | func =>
    refine .after fun address => .pure ?_
    rintro s ht rfl - hd
    by_cases hc : s.flags.contains .const = true
    · refine sized_of_none (hd.trans (if_pos hc)) fun hf => ?_
      exact absurd hc (ne_true_of_eq_false hf.2.1)
    · -- the one word that is stored is the one element
      have hd : s.data = initialValues .int [address.toInt32] := hd.trans (if_neg hc)
      intro k hk
      have hk' : s.cellKind? = some .int := congrArg (·.kind?.bind CellKind.ofKind?) ht
      obtain rfl := Option.some.inj (hk'.symm.trans hk)
      have hone : [address.toInt32] = [] → s.count.toNat = 0 := fun h =>
        absurd h (List.cons_ne_nil _ _)
      rw [shape_ofSymbol_initialValues hk (by decide) hd hone, extent,
        if_pos ⟨ht, eq_false_of_ne_true hc, eq_false_of_ne_true hm⟩]
      rfl
  | cls | proto | inst =>
    refine .after fun a => .pure fun s ht _ _ hd => sized_of_none hd fun hf => ?_
    cases ht.symm.trans hf.1
  | void =>
    refine .pure fun s ht _ _ hd => sized_of_none hd fun hf => ?_
    cases ht.symm.trans hf.1

theorem read_sized (enc : Text.Encoding) (i : UInt32) : Ensures (read enc i) Sized := by
  refine ensures_read (readOwnPayload_sizes enc) ?_
  rintro s - - ⟨a, ha, hd⟩
  exact ha s rfl rfl rfl hd

end Symbol

namespace Script

variable {p : Script} {enc : Text.Encoding} {bytes : List UInt8}

/-- The symbols of a loaded script have the cells they ask for, and so have the slots. -/
theorem sized_of_load (hload : load enc bytes = .ok p) {s : Symbol} (hs : s ∈ p.symbols) :
    s.Sized := by
  refine forall_mem_of_load (Symbol.read_sized enc) (fun name i => ?_) hload s hs
  exact Symbol.sized_of_none rfl fun hf => nomatch hf.1

end Script

/-! ## Where the storages are -/

/-- The storage of a global variable has the shape it was created with. -/
theorem Memory.exists_global {m : Memory} {p : Script} {s : Symbol} {i : UInt32}
    (hm : m.globals.map Storage.shape = initialShapes p) (hs : p.symbolByIndex? i = some s) :
    ∃ st, m.globals[i.toNat]? = some st ∧ st.shape = (initialStorage s).shape := by
  have hs : p.symbols[i.toNat]? = some s := hs
  have hshape := congrArg (·[i.toNat]?) hm
  simp only [initialShapes, Array.getElem?_map, hs, Option.map_some] at hshape
  exact Option.map_eq_some_iff.1 hshape

/-- A symbol in the range of a class has a field in every instance, in the shape it asks for. -/
theorem Instance.Fits.exists_field {p : Script} {y : Instance} {cls s : Symbol} {i : UInt32}
    (hp : p.Numbered) (hy : y.Fits p) (hcls : p.symbolByIndex? y.cls = some cls)
    (hs : p.symbolByIndex? i = some s) (hlt : y.cls < i)
    (hle : i.toNat ≤ y.cls.toNat + cls.count.toNat) :
    ∃ n st, Memory.ordinal y.cls i = .ok n ∧ y.fields[n]? = some st ∧
      st.shape = (Storage.ofSymbol s).shape := by
  obtain ⟨n, hn⟩ := Nat.exists_eq_add_of_le (Nat.succ_le_of_lt (UInt32.lt_iff_toNat_lt.1 hlt))
  obtain ⟨cls', hcls', htype, hshape⟩ := hy
  obtain rfl := Option.some.inj (hcls.symm.trans hcls')
  have hi : i.toNat < p.symbols.size := (Array.getElem?_eq_some_iff.1 hs).1
  have hlength : n < (p.membersOf cls).length := by
    rw [Script.membersOf, if_pos htype, Script.following, Array.length_toList, Array.size_extract,
      hp _ _ hcls]
    omega
  have hmember : (p.membersOf cls)[n]? = some s := by
    rw [Script.getElem?_membersOf hlength, hp _ _ hcls, ← hn]
    exact hs
  have hfield := congrArg (·[n]?) hshape
  simp only [Array.getElem?_map, List.getElem?_toArray, List.getElem?_map, hmember,
    Option.map_some] at hfield
  obtain ⟨st, hst, hst'⟩ := Option.map_eq_some_iff.1 hfield
  exact ⟨n, st, Memory.ordinal_eq_ok.2 hn.symm, hst, hst'⟩

/-! ## Reading elements -/

namespace Machine

variable {σ : Type} {m m' : Machine σ} {enc : Text.Encoding} {bytes : List UInt8} {p : Script}
  {c : Config} {s : Symbol} {k : CellKind} {i : UInt32} {context : Option Handle} {n : Nat}

/-- Whether the first `n` elements of a variable can be read under a kind in some context, and all
others are out of range. -/
structure Spans (m : Machine σ) (s : Symbol) (k : CellKind) (i : UInt32)
    (context : Option Handle) (n : Nat) : Prop where
  within : ∀ j < n, ∃ v,
    m.memory.read m.script m.config.flags k ⟨i, j, context⟩ = .ok v
  beyond : ∀ j, n ≤ j →
    m.memory.read m.script m.config.flags k ⟨i, j, context⟩ = .error (.indexOutOfRange s.name j n)

/-- The elements of a variable are the cells of the storage that its references lead to. -/
theorem spans_of_lookup {st : Storage} (hs : m.script.symbolByIndex? i = some s)
    (hl : ∀ j, m.memory.lookup m.script m.config.flags s ⟨i, j, context⟩ = .ok (some st))
    (hst : st.shape = (some k, n)) : m.Spans s k i context n where
  within j hj := by
    obtain ⟨v, hv⟩ := Storage.get_of_lt hst hj
    rw [Memory.read_eq_lookup (Script.find_index_eq_ok.2 hs), hl]
    exact ⟨v, congrArg (Except.mapError _) hv⟩
  beyond j hj := by
    rw [Memory.read_eq_lookup (Script.find_index_eq_ok.2 hs), hl]
    exact congrArg (Except.mapError _) (Storage.get_of_le hst hj)

/-- Whether one machine becomes another by allocating instances. -/
def Allocating : Machine σ → Machine σ → Prop :=
  Relation.ReflTransGen fun m m' => ∃ key tag h, alloc key tag m = (.ok h, m')

/-- Allocating instances keeps the shapes of the global variables. -/
theorem Allocating.shape_globals (hload : Script.load enc bytes = .ok p)
    (h : Allocating (new p c) m) :
    m.script = p ∧ m.memory.globals.map Storage.shape = Memory.initialShapes p := by
  induction h with
  | refl => exact ⟨rfl, Array.map_map⟩
  | tail _ h ih =>
    obtain ⟨rfl, hshape⟩ := ih
    obtain ⟨key, tag, x, h⟩ := h
    rcases alloc_eq h with ⟨s, x, memory, hs, hm, -, rfl⟩ | ⟨e, he, -⟩
    · exact ⟨rfl, Memory.map_shape_alloc hload hs hm hshape⟩
    · cases he

/-- A global variable has as many elements as its extent is, as long as only instances were
allocated. -/
theorem Allocating.spans (hload : Script.load enc bytes = .ok p) (h : Allocating (new p c) m)
    (hs : p.symbolByIndex? i = some s) (hk : s.cellKind? = some k) (hmember : s.isMember = false)
    (context : Option Handle) : m.Spans s k i context s.extent := by
  obtain ⟨rfl, hshape⟩ := h.shape_globals hload
  obtain ⟨st, hst, hshape⟩ := Memory.exists_global hshape hs
  refine spans_of_lookup hs (fun j => ?_) (hshape.trans ?_)
  · rw [Memory.lookup_global hmember, hst]
  · rw [Memory.initialStorage, hmember]
    exact Script.sized_of_load hload (Array.mem_of_getElem? hs) k hk

/-- So has a member in every live instance of its class, whatever happens to the machine. -/
theorem Evolves.spans (hload : Script.load enc bytes = .ok p) (hev : Evolves (new p c) m)
    {h : Handle} {x : Instance} {cls : Symbol} (hx : m.memory.instances.get? h = some x)
    (hcls : p.symbolByIndex? x.cls = some cls) (hs : p.symbolByIndex? i = some s)
    (hk : s.cellKind? = some k) (hmember : s.isMember = true) (hparent : s.parent = some x.cls)
    (hlt : x.cls < i) (hle : i.toNat ≤ x.cls.toNat + cls.count.toNat) :
    m.Spans s k i (some h) s.extent := by
  obtain rfl : m.script = p := hev.script_eq
  have hfits := hev.fits hload h x hx
  obtain ⟨n, st, hn, hst, hshape⟩ :=
    hfits.exists_field (Script.numbered_of_load hload) hcls hs hlt hle
  refine spans_of_lookup hs (fun j => ?_)
    (hshape.trans (Script.sized_of_load hload (Array.mem_of_getElem? hs) k hk))
  rw [Memory.lookup_member hmember]
  simp only [hx, if_pos hparent, hn, hst]

/-- Take a loaded script and a symbol whose type has cells. If it is a global variable, and nothing
but allocating happened to the machine, as many elements can be read as its extent is, and all
others are out of range. If it is a member, this holds in every live instance of its class, whatever
happened to the machine. The extent is the number that is declared, or one if none is; but a global
variable that holds a function has one element, whatever it declares. -/
theorem index_bounds (hload : Script.load enc bytes = .ok p) (hs : p.symbolByIndex? i = some s)
    (hk : s.cellKind? = some k) :
    (s.isMember = false → ∀ m : Machine σ, Allocating (new p c) m →
      ∀ context, m.Spans s k i context s.extent) ∧
    (s.isMember = true → ∀ m : Machine σ, Evolves (new p c) m → ∀ h x cls,
      m.memory.instances.get? h = some x → p.symbolByIndex? x.cls = some cls →
      s.parent = some x.cls → x.cls < i → i.toNat ≤ x.cls.toNat + cls.count.toNat →
      m.Spans s k i (some h) s.extent) :=
  ⟨fun hmember _ hm context => hm.spans hload hs hk hmember context,
    fun hmember _ hm _ _ _ hx hcls hparent hlt hle =>
      hm.spans hload hx hcls hs hk hmember hparent hlt hle⟩

end Machine

/-! ## Variables of numbers and of functions -/

/-- A script with a variable that declares two functions. -/
def Script.functions : Script :=
  .ofParts 50 [{ Symbol.blank "F" 0 .func none with count := 2, data := .ints [0] }] #[]

/-- The script as it is compiled. -/
def Script.functionsBytes : List UInt8 :=
  50 :: [1, 0, 1].flatMap LittleEndian.encode ++ [70, 10] ++
    [0, 0x5002, 0, 0, 0, 0, 0, 0, 0xFFFFFFFF, 0].flatMap LittleEndian.encode

theorem Script.load_functionsBytes : load .windows1252 functionsBytes = .ok functions := rfl

/-- A script with a variable of two numbers. -/
def Script.numbers : Script :=
  .ofParts 50 [{ Symbol.blank "N" 0 .int none with count := 2, data := .ints [5, 7] }] #[]

/-- The script as it is compiled. -/
def Script.numbersBytes : List UInt8 :=
  50 :: [1, 0, 1].flatMap LittleEndian.encode ++ [78, 10] ++
    [0, 0x2002, 0, 0, 0, 0, 0, 5, 7, 0xFFFFFFFF, 0].flatMap LittleEndian.encode

theorem Script.load_numbersBytes : load .windows1252 numbersBytes = .ok numbers := rfl

namespace Machine

/-- A global variable that holds functions need not have as many elements as it declares: the second
of two cannot be read. -/
theorem not_bounded_by_count :
    Script.load .windows1252 Script.functionsBytes = .ok .functions ∧
      ∃ s, Script.functions.symbolByIndex? 0 = some s ∧ s.type = .func ∧ s.isConst = false ∧
        s.isMember = false ∧ 1 < max s.count.toNat 1 ∧
        (Query.answer (new .functions .default : Machine Unit) (.read .int (.index 0) 1 none)).1 =
          .error (.indexOutOfRange "F" 1 1) :=
  ⟨Script.load_functionsBytes, _, rfl, rfl, rfl, rfl, by decide, by decide +kernel⟩

/-- A variable of two numbers has two elements, the one that declares two functions has one, and so
has the member of a script whose instance is allocated. -/
theorem index_bounds_figure :
    (∃ s, Script.numbers.symbolByIndex? 0 = some s ∧
      (new .numbers .default : Machine Unit).Spans s .int 0 none 2) ∧
    (∃ s, Script.functions.symbolByIndex? 0 = some s ∧
      (new .functions .default : Machine Unit).Spans s .int 0 none 1) ∧
    ∃ s, Script.figure.symbolByIndex? 1 = some s ∧
      figureHeld.Spans s .int 1 (some figureHandle) 1 := by
  obtain ⟨hnumbers, -⟩ := index_bounds (σ := Unit) (c := .default) (i := 0) (k := .int)
    Script.load_numbersBytes rfl rfl
  obtain ⟨hfunctions, -⟩ := index_bounds (σ := Unit) (c := .default) (i := 0) (k := .int)
    Script.load_functionsBytes rfl rfl
  obtain ⟨-, hfield⟩ := index_bounds (σ := Unit) (c := .default) (i := 1) (k := .int)
    Script.load_figureBytes rfl rfl
  have hheld : Evolves (new .figure .default) figureHeld :=
    Edits.evolves (keeps_alloc _ _ _ _ _ alloc_figure)
  exact ⟨⟨_, rfl, hnumbers rfl _ .refl none⟩, ⟨_, rfl, hfunctions rfl _ .refl none⟩, _, rfl,
    hfield rfl _ hheld figureHandle _ _ rfl rfl rfl (by decide) (by decide)⟩

end Machine

end ScriptMachine
