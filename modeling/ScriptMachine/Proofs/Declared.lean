import ScriptMachine.Proofs.Emission
import ScriptMachine.Proofs.Shape

/-!
# Functions as they are declared

A function that is assembled is declared with its parameters behind it: variables of one cell whose
names have a dot. In a script that is loaded with them, they are the parameters of the function, and
its signature consists of the kinds of their types.

* `Script.Begins` – whether a script begins with a draft.
* `Draft.declaredFunction`, `declaredParameter` – the symbols that are declared.
* `Script.Begins.getElem?_parametersOf` – the parameters of a function that was loaded.
-/

namespace ScriptMachine

open Assembler

/-! ## Scripts with an assembled function -/

/-- Whether a loaded script begins with the symbols and the code of a draft. -/
structure Script.Begins (p : Script) (d : Draft) : Prop where
  symbols : d.symbols.toList.map Symbol.loaded <+: p.symbols.toList
  code : d.code.toList <+: p.code.toList

/-- The script that is loaded from the bytes of a draft begins with it. -/
theorem Script.begins_ofParts (version : UInt8) (d : Draft) :
    (ofParts version (d.symbols.toList.map Symbol.loaded) d.code).Begins d :=
  ⟨List.prefix_append _ _, List.prefix_rfl⟩

namespace Script.Begins

variable {p : Script} {d d' : Draft}

/-- So it begins with any draft that this one began with. -/
theorem of_extends (h : p.Begins d') (hd : d'.Extends d) : p.Begins d :=
  ⟨(hd.symbols.map _).trans h.symbols, hd.code.trans h.code⟩

theorem getElem? (h : p.Begins d) {i : Nat} {s : Symbol} (hs : d.symbols[i]? = some s) :
    p.symbols[i]? = some s.loaded := by
  obtain ⟨rest, hrest⟩ := h.symbols
  rw [← Array.getElem?_toList] at hs ⊢
  have hi : i < (d.symbols.toList.map Symbol.loaded).length := by
    rw [List.length_map]
    exact (List.getElem?_eq_some_iff.1 hs).1
  rw [← hrest, List.getElem?_append_left hi, List.getElem?_map, hs]
  rfl

end Script.Begins

namespace Assembler.Draft

/-- Symbols that are added get the indices behind those that are there. -/
theorem getElem?_addAll {l : List Symbol} {i : Nat} {s : Symbol} (hs : l[i]? = some s)
    (d : Draft) : (d.addAll l).symbols[d.symbols.size + i]? =
      some { s with
        name := Text.upperName s.name, index := UInt32.ofNat (d.symbols.size + i) } := by
  induction l generalizing d i with
  | nil => cases hs
  | cons t l ih =>
    cases i with
    | zero =>
      obtain rfl := Option.some.inj hs
      exact (Extends.addAll (d.add t) l).getElem? Array.getElem?_push_size
    | succ i =>
      have hsize : (d.add t).symbols.size + i = d.symbols.size + (i + 1) := by
        rw [add, Array.size_push]
        omega
      rw [← hsize]
      exact ih hs (d.add t)

end Assembler.Draft

/-- The name of a parameter has a dot. -/
theorem Text.dot_mem_foldName_upperName {s : String} (h : '.' ∈ s.toList) :
    '.' ∈ foldName (upperName s) := by
  have hdot : '.'.toUpper = '.' := by decide
  have hmem : '.' ∈ foldName s := hdot ▸ List.mem_map_of_mem h
  rw [foldName, upperName, String.toList_ofList]
  exact List.mem_map.2 ⟨_, hmem, hdot⟩

namespace Assembler

/-- The symbol that is declared for a function. -/
def Draft.declaredFunction (d : Draft) (name : String) (params : List DataType)
    (result : Option DataType) : Symbol :=
  { functionSymbol name params result d.here with
    name := Text.upperName name, index := d.nextIndex }

/-- The symbol that is declared for a parameter. -/
def declaredParameter (owner : String) (index i : Nat) (type : DataType) : Symbol :=
  { Symbol.blank (Text.upperName (owner ++ ".PAR" ++ toString i)) (UInt32.ofNat index) type
      none with data := zeros type 1 }

variable {d : Draft} {name : String} {params : List DataType} {result : Option DataType}
  {body : List BodyItem}

namespace Draft

/-- A function that is declared has a body of its own, whether it returns a value or not. -/
theorem flags_declaredFunction : (d.declaredFunction name params result).isConst = true ∧
    (d.declaredFunction name params result).isExternal = false := by
  have hflags : ∀ returns : Bool,
      let flags := if returns then SymbolFlags.const.union .returns else .const
      flags.contains .const = true ∧ flags.contains .external = false := by decide
  exact hflags result.isSome

theorem loaded_declaredFunction : (d.declaredFunction name params result).loaded =
    d.declaredFunction name params result := by
  have hdata : (d.declaredFunction name params result).loadedData = .none :=
    if_neg fun h => Bool.false_ne_true (h.2.1.symm.trans flags_declaredFunction.1)
  rw [Symbol.loaded, hdata]
  rfl

/-- A function is declared with its parameters behind it. -/
theorem getElem?_declare_function (d : Draft) (name : String) (params : List DataType)
    (result : Option DataType) (body : List BodyItem) :
    (d.declare (.function name params result body)).symbols[d.symbols.size]? =
        some (d.declaredFunction name params result) ∧
      ∀ i type, params[i]? = some type →
        (d.declare (.function name params result body)).symbols[d.symbols.size + 1 + i]? =
          some (declaredParameter name (d.symbols.size + 1 + i) i type) := by
  let d' := d.add (functionSymbol name params result d.here)
  have hbody : (d.declare (.function name params result body)).Extends
      (d'.addAll (parameterSymbols name params)) := .addBody _ _
  have hsize : d'.symbols.size = d.symbols.size + 1 := Array.size_push _
  constructor
  · exact ((Extends.addAll d' _).trans hbody).getElem? Array.getElem?_push_size
  · intro i type hi
    have hs : (parameterSymbols name params)[i]? = some
        { Symbol.blank (name ++ ".PAR" ++ toString i) 0 type none with data := zeros type 1 } := by
      simp [parameterSymbols, hi]
    rw [← hsize]
    exact hbody.getElem? (getElem?_addAll hs d')

end Draft

/-! ## Parameters -/

variable {owner : String} {index i : Nat} {type : DataType}

/-- A parameter is a variable that can be assigned, whether it holds a function or not. -/
theorem flags_declaredParameter :
    (declaredParameter owner index i type).loaded.isConst = false ∧
      (declaredParameter owner index i type).loaded.isMember = false := by
  have hflags : SymbolFlags.none.contains .const = false ∧
      SymbolFlags.none.contains .member = false := by decide
  exact hflags

/-- It has one cell for values of its kind. -/
theorem shape_declaredParameter {k : CellKind} (h : type.kind? = some k.kind) :
    (Memory.initialStorage (declaredParameter owner index i type).loaded).shape = (some k, 1) := by
  have hflags : (declaredParameter owner index i type).loaded.isConst = false ∧
      (declaredParameter owner index i type).loaded.isMember = false := flags_declaredParameter
  obtain ⟨hconst, hmember⟩ := hflags
  rw [Memory.initialStorage, if_neg (by simp [hmember])]
  by_cases hfunc : type = .func
  · -- a variable that holds a function is loaded with the address in its place, a zero
    subst hfunc
    rw [Symbol.loaded, Symbol.loadedData, if_pos ⟨rfl, hconst, hmember⟩]
    cases k <;> first | rfl | cases h
  · rw [Symbol.loaded, Symbol.loadedData, if_neg fun h => hfunc h.1]
    cases type <;> cases k <;> first | rfl | cases h

/-- The name of a parameter has a dot, as no slot has. -/
theorem dot_mem_declaredParameter :
    '.' ∈ Text.foldName (declaredParameter owner index i type).loaded.name := by
  refine Text.dot_mem_foldName_upperName (s := owner ++ ".PAR" ++ toString i) ?_
  simp [String.toList_append]

end Assembler

namespace Script

variable {p : Script} {f : Symbol}

/-- A signature is declared if all types are of a kind. -/
theorem declaredSignature_of_kinds {ks : List Kind} {k : Kind}
    (hparams : (p.parametersOf f).map Symbol.kind? = ks.map some)
    (hresult : resultKind f = .ok k) : p.declaredSignature f = .ok ⟨ks, k⟩ := by
  have hkinds : (p.parametersOf f).mapM (parameterKind f) = .ok ks := by
    generalize p.parametersOf f = l at hparams
    induction l generalizing ks with
    | nil =>
      obtain rfl := List.map_eq_nil_iff.1 hparams.symm
      rfl
    | cons s l ih =>
      cases ks with
      | nil => cases hparams
      | cons k ks =>
        obtain ⟨hs, hl⟩ := List.cons.inj hparams
        have hk : parameterKind f s = .ok k := by rw [parameterKind, hs]
        rw [List.mapM_cons, Except.bind_of_ok hk, Except.bind_of_ok (ih hl)]
        rfl
  rw [declaredSignature, Except.bind_of_ok hkinds, Except.bind_of_ok hresult]
  rfl

namespace Begins

variable {d : Draft} {name : String} {params : List DataType} {result : Option DataType}
  {body : List BodyItem} (h : p.Begins (d.declare (.function name params result body)))

include h

theorem function : p.symbols[d.symbols.size]? = some (d.declaredFunction name params result) := by
  rw [h.getElem? (d.getElem?_declare_function name params result body).1,
    Draft.loaded_declaredFunction]

theorem parameter {i : Nat} {type : DataType} (hi : params[i]? = some type) :
    p.symbols[d.symbols.size + 1 + i]? =
      some (declaredParameter name (d.symbols.size + 1 + i) i type).loaded :=
  h.getElem? ((d.getElem?_declare_function name params result body).2 i type hi)

theorem size_add_lt {i : Nat} (hi : i ≤ params.length) :
    d.symbols.size + i < p.symbols.size := by
  cases i with
  | zero => exact (Array.getElem?_eq_some_iff.1 h.function).1
  | succ i =>
    have hparam := h.parameter (List.getElem?_eq_getElem hi)
    rw [Nat.add_assoc, Nat.add_comm 1 i] at hparam
    exact (Array.getElem?_eq_some_iff.1 hparam).1

section

variable (hsymbols : p.symbols.size ≤ UInt32.size)

include hsymbols

/-- The index of a function is its position. -/
theorem toNat_nextIndex : d.nextIndex.toNat = d.symbols.size :=
  UInt32.toNat_ofNat_of_lt' (Nat.lt_of_lt_of_le (h.size_add_lt (Nat.zero_le _)) hsymbols)

/-- A function is found where it is declared. -/
theorem symbolByIndex?_function :
    p.symbolByIndex? d.nextIndex = some (d.declaredFunction name params result) := by
  rw [symbolByIndex?, h.toNat_nextIndex hsymbols, h.function]

/-- The parameters of a function are found behind it. -/
theorem toNat_parameter {i : Nat} (hi : i < params.length) :
    (d.nextIndex + 1 + UInt32.ofNat i).toNat = d.symbols.size + 1 + i := by
  have hlt := h.size_add_lt hi
  have hadd : d.nextIndex + 1 + UInt32.ofNat i = UInt32.ofNat (d.symbols.size + 1 + i) := by
    rw [UInt32.ofNat_add, UInt32.ofNat_add, Draft.nextIndex]
    rfl
  rw [hadd, UInt32.toNat_ofNat_of_lt' (Nat.lt_of_lt_of_le (by omega) hsymbols)]

end

variable (hlength : params.length ≤ 4095) (hsymbols : p.symbols.size ≤ UInt32.size)

include hlength hsymbols

/-- The parameters of a function are those that are declared with it. -/
theorem getElem?_parametersOf (i : Nat) :
    (p.parametersOf (d.declaredFunction name params result))[i]? = params[i]?.map fun type =>
      (declaredParameter name (d.symbols.size + 1 + i) i type).loaded := by
  have hindex : (d.declaredFunction name params result).index.toNat = d.symbols.size :=
    h.toNat_nextIndex hsymbols
  have hcount : (d.declaredFunction name params result).count.toNat = params.length :=
    toNat_ofNat_of_le hlength
  have hfunc : (d.declaredFunction name params result).type = .func := rfl
  rw [parametersOf, if_pos hfunc, following, hindex, hcount, Array.getElem?_toList,
    Array.getElem?_extract]
  cases hi : params[i]? with
  | none =>
    have hle := List.getElem?_eq_none_iff.1 hi
    rw [if_neg (by omega)]
    rfl
  | some type =>
    obtain ⟨hlt, -⟩ := List.getElem?_eq_some_iff.1 hi
    have hsize := h.size_add_lt (Nat.le_refl _)
    rw [if_pos (by omega), h.parameter hi]
    rfl

/-- They are of the types that are declared. -/
theorem kinds_parametersOf :
    (p.parametersOf (d.declaredFunction name params result)).map Symbol.kind? =
      params.map DataType.kind? := by
  refine List.ext_getElem? fun i => ?_
  rw [List.getElem?_map, List.getElem?_map, h.getElem?_parametersOf hlength hsymbols,
    Option.map_map]
  rfl

end Begins

end Script

end ScriptMachine
