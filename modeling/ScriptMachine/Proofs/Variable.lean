import ScriptMachine.Proofs.Shape

/-!
# Variables of a script's own

The machine binds instances to the slots and to the instances that have bodies. Any other symbol is
written to by assignments only, so its storage keeps the shape that it was created with, whatever
the slots of the script are.

* `Script.Own` – whether the machine itself does not bind a symbol.
* `Script.own_of_dot` – a variable whose name has a dot is no slot.
* `Machine.Evolves.shape_own` – the storage of such a symbol keeps its shape.
-/

namespace ScriptMachine

namespace Script

variable {p : Script} {enc : Text.Encoding} {bytes : List UInt8} {i : UInt32} {s : Symbol}

/-! ## Symbols by position -/

section

variable (hsymbols : p.symbols.size ≤ UInt32.size)

include hsymbols

/-- If all positions of a table are indices, a symbol is found at its position. -/
theorem symbolByIndex?_of_getElem? {j : Nat} (hs : p.symbols[j]? = some s) :
    p.symbolByIndex? (UInt32.ofNat j) = some s := by
  obtain ⟨hj, -⟩ := Array.getElem?_eq_some_iff.1 hs
  rw [symbolByIndex?, UInt32.toNat_ofNat_of_lt' (Nat.lt_of_lt_of_le hj hsymbols), hs]

theorem symbolByIndex?_of_mem (hload : load enc bytes = .ok p) (hs : s ∈ p.symbols) :
    p.symbolByIndex? s.index = some s := by
  obtain ⟨j, hj⟩ := Array.getElem?_of_mem hs
  have hfound := symbolByIndex?_of_getElem? hsymbols hj
  rwa [← numbered_of_load hload _ _ hfound] at hfound

end

/-! ## Slots -/

/-- The loader sees to it that there is a symbol with the name of each slot. -/
theorem exists_slot (hload : load enc bytes = .ok p) (slot : GlobalSlot) :
    ∃ s ∈ p.symbols, p.symbolByName? slot.symbolName = some s := by
  have hname : slot.symbolName ∈ slotNames := by cases slot <;> decide
  obtain ⟨version, symbols, code, rfl, -⟩ := exists_parts_of_load hload
  have hfind : ∃ s ∈ (ofParts version symbols code).symbols,
      Text.sameName s.name slot.symbolName = true := by
    by_cases hany : symbols.any (fun s => Text.sameName s.name slot.symbolName) = true
    · obtain ⟨s, hs, h⟩ := List.any_eq_true.1 hany
      exact ⟨s, by simp [ofParts, hs], h⟩
    · -- there is none in the table, so one is added
      have hmissing : slot.symbolName ∈ missingSlots symbols :=
        List.mem_filter.2 ⟨hname, by simpa using hany⟩
      obtain ⟨k, hk⟩ := List.mem_iff_getElem?.1 hmissing
      refine ⟨slotSymbol slot.symbolName (symbols.length + k), ?_, Text.sameName_iff.2 rfl⟩
      rw [ofParts, List.mem_toArray]
      refine List.mem_append_right _ (List.mem_map.2 ⟨(slot.symbolName, k), ?_, rfl⟩)
      exact List.mem_zipIdx_iff_getElem?.2 hk
  obtain ⟨s, hs, h⟩ := hfind
  cases hfound : (ofParts version symbols code).symbolByName? slot.symbolName with
  | none => exact absurd h (Array.find?_eq_none.1 hfound s hs)
  | some u => exact ⟨u, Array.mem_of_find?_eq_some hfound, rfl⟩

/-- Whether a symbol is bound to an instance by assignments only: it is no slot, and no instance
that has a body. -/
structure Own (p : Script) (i : UInt32) (s : Symbol) : Prop where
  found : p.symbolByIndex? i = some s
  slot : ∀ slot : GlobalSlot, p.slotIndex slot.symbolName ≠ i
  definition : s.isInstanceDefinition = false

/-- The name of a slot has no dot, so a variable whose name has one is no slot. -/
theorem own_of_dot (hload : load enc bytes = .ok p) (hsymbols : p.symbols.size ≤ UInt32.size)
    (hs : p.symbolByIndex? i = some s) (hdot : '.' ∈ Text.foldName s.name)
    (hdef : s.isInstanceDefinition = false) : p.Own i s := by
  refine ⟨hs, fun slot hi => ?_, hdef⟩
  obtain ⟨u, hu, hname⟩ := exists_slot hload slot
  rw [slotIndex, hname] at hi
  obtain rfl : u.index = i := hi
  have hfound := symbolByIndex?_of_mem hsymbols hload hu
  obtain rfl := Option.some.inj (hfound.symm.trans hs)
  rw [foldName_of_symbolByName? hname] at hdot
  cases slot <;> exact absurd hdot (by decide)

end Script

/-! ## Storages -/

variable {p : Script} {enc : Text.Encoding} {bytes : List UInt8} {i : UInt32} {s : Symbol}

/-- An instance that is bound to another symbol leaves a storage as it is. -/
theorem Memory.getElem?_bind_of_ne {m : Memory} {j : UInt32} (h : j ≠ i) (x : Option Handle) :
    (m.bind j x).globals[i.toNat]? = m.globals[i.toNat]? := by
  rw [bind, Array.getElem?_modify, if_neg fun he => h (UInt32.toNat_inj.1 he)]

/-- Every step keeps the shape of a storage that the machine does not bind. -/
theorem Memory.Step.shape_own {m m' : Memory} (hload : Script.load enc bytes = .ok p)
    (hs : p.Own i s) (h : m.Step p m') :
    (m'.globals[i.toNat]?).map Storage.shape = (m.globals[i.toNat]?).map Storage.shape := by
  cases h with
  | same => rfl
  | store h =>
    cases h with
    | dropped | field => rfl
    | global hst hset =>
      rw [← Array.getElem?_map, ← Array.getElem?_map,
        map_shape_setIfInBounds hst (Storage.shape_set hset)]
  | alloc hfind h =>
    obtain ⟨cls, instances, hcls, hi, rfl⟩ := alloc_eq_ok h
    obtain ⟨hdef, -⟩ := classFor_eq_ok hcls
    have hfound := Script.symbolByIndex?_of_isInstanceDefinition hload hfind hdef
    rw [getElem?_bind_of_ne]
    -- the symbol that is bound has a body
    rintro rfl
    obtain rfl := Option.some.inj (hfound.symm.trans hs.found)
    cases hdef.symm.trans hs.definition
  | free h =>
    obtain ⟨instances, hi, rfl⟩ := free_eq_ok h
    rw [Array.getElem?_map, Option.map_map]
    exact congrArg (Option.map · _) (funext fun st => Storage.shape_forget _ st)
  | setSlot slot x => rw [getElem?_bind_of_ne (hs.slot slot)]
  | markInitialized h => rw [globals_markInitialized h]

/-- So it has the shape it was created with, whatever happens to a machine. -/
theorem Machine.Evolves.shape_own {σ : Type} {m : Machine σ} {c : Config}
    (hload : Script.load enc bytes = .ok p) (hs : p.Own i s) (h : Evolves (new p c) m) :
    (m.memory.globals[i.toNat]?).map Storage.shape = some (Memory.initialStorage s).shape := by
  refine h.keeps_memory (Q := fun n =>
    (n.globals[i.toNat]?).map Storage.shape = some (Memory.initialStorage s).shape) ?_ ?_
  · exact fun hstep hn => (hstep.shape_own hload hs).trans hn
  · have hs : p.symbols[i.toNat]? = some s := hs.found
    rw [new, Memory.ofScript, Array.getElem?_map, hs]
    rfl

end ScriptMachine
