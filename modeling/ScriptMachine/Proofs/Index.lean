import Mathlib.Data.List.Nodup
import ScriptMachine.Proofs.SymbolTable
import ScriptMachine.Script.Index

/-!
# What the index of a script holds

The loader enters symbols one after the other, and the first one under a key stays. So an entry is
the index of the first symbol that has the key, and a look-up in the index comes to the same as a
search of the table.

* `Entries.lookup_enterAll` – what is found after some symbols are entered.
* `Entries.Distinct` – whether no key is entered twice.
* `Index.Named` – whether the names lead to the first symbols that have them.
* `Index.Named.symbols_addSlots` – the slots that are added while names are entered.
* `Script.IsFirst` – whether a symbol is the first one that has a property.
* `Script.lookup_names`, `Script.lookup_addresses` – what the index of a loaded script holds.
-/

namespace ScriptMachine

/-! ## Names in upper case -/

namespace Text

theorem sameName_iff_upperName {a b : String} :
    sameName a b = true ↔ upperName a = upperName b := by
  rw [sameName_iff, upperName, upperName, String.ofList_inj]

end Text

namespace Script

/-! ## Entries -/

namespace Entries

variable {κ : Type} [BEq κ] [LawfulBEq κ] {es : Entries κ} {key : Symbol → κ}

theorem lookup_enter (es : Entries κ) (k k' : κ) (i : UInt32) :
    (es.enter k i).lookup k' = (es.lookup k').or (if k == k' then some i else none) := by
  have hcomm : (k' == k) = (k == k') := Bool.beq_comm
  rw [enter]
  split
  · next h =>
    -- the key is there already
    by_cases hk : (k == k') = true
    · obtain ⟨j, hj⟩ := Option.isSome_iff_exists.1 h
      rw [← eq_of_beq hk, hj, Option.some_or]
    · rw [if_neg hk, Option.or_none]
  · rw [List.lookup_append, List.lookup_cons, hcomm]
    cases k == k' <;> rfl

/-- Under a key the first symbol is found that has it. -/
theorem lookup_enterAll (es : Entries κ) (l : List Symbol) (k : κ) :
    (es.enterAll key l).lookup k =
      (es.lookup k).or ((l.find? fun s => key s == k).map (·.index)) := by
  -- the entries grow on the left of the search, so they are kept arbitrary
  induction l generalizing es with
  | nil => rw [List.find?_nil, Option.map_none, Option.or_none]; rfl
  | cons s l ih =>
    have hs : (es.enterAll key (s :: l)).lookup k =
        ((es.enter (key s) s.index).enterAll key l).lookup k := rfl
    rw [hs, ih, lookup_enter, Option.or_assoc, List.find?_cons]
    cases key s == k <;> rfl

/-- Whether no two entries have the same key. -/
def Distinct (es : Entries κ) : Prop := es.Pairwise (·.1 ≠ ·.1)

theorem Distinct.enter (h : es.Distinct) (k : κ) (i : UInt32) : (es.enter k i).Distinct := by
  rw [Entries.enter]
  split
  · exact h
  · next hk =>
    refine List.pairwise_append.2 ⟨h, List.pairwise_singleton _ _, fun e he e' he' hkey => ?_⟩
    obtain rfl := List.mem_singleton.1 he'
    rw [Bool.not_eq_true, Option.isSome_eq_false_iff, Option.isNone_iff_eq_none,
      List.lookup_eq_none_iff] at hk
    exact absurd hkey.symm (bne_iff_ne.1 (hk e he))

theorem Distinct.enterAll (h : es.Distinct) (l : List Symbol) : (es.enterAll key l).Distinct := by
  induction l generalizing es with
  | nil => exact h
  | cons s l ih => exact ih (h.enter _ _)

/-- The entries are what is found under their keys. -/
theorem Distinct.lookup_eq_some_iff (h : es.Distinct) {k : κ} {i : UInt32} :
    es.lookup k = some i ↔ (k, i) ∈ es := by
  rw [List.lookup_eq_some_iff]
  constructor
  · rintro ⟨l₁, l₂, rfl, -⟩
    simp
  · intro hmem
    obtain ⟨l₁, l₂, rfl⟩ := List.append_of_mem hmem
    refine ⟨l₁, l₂, rfl, fun e he => bne_iff_ne.2 fun hk => ?_⟩
    exact (List.pairwise_append.1 h).2.2 e he _ List.mem_cons_self hk.symm

end Entries

/-! ## Building the index -/

namespace Index

variable {x : Index}

/-- Whether the names of an index lead to the first symbols that have them. -/
def Named (x : Index) : Prop :=
  ∀ k, x.names.lookup k =
    (x.symbols.find? fun s => Text.upperName s.name == k).map (·.index)

theorem named_ofNames (symbols : List Symbol) : (ofNames symbols).Named :=
  fun k => Entries.lookup_enterAll [] symbols k

/-- A name that stands in upper case is in the index if a symbol has it. -/
theorem Named.isSome_lookup (h : x.Named) {name : String} (hname : Text.upperName name = name) :
    (x.names.lookup name).isSome = x.symbols.any fun s => Text.sameName s.name name := by
  have hp : (fun s : Symbol => Text.upperName s.name == name) =
      fun s => Text.sameName s.name name := by
    funext s
    rw [Bool.eq_iff_iff, Text.sameName_iff_upperName, hname, beq_iff_eq]
  rw [h, Option.isSome_map, hp, Bool.eq_iff_iff, List.find?_isSome, List.any_eq_true]

theorem Named.addSlot (h : x.Named) {name : String} (hname : Text.upperName name = name) :
    (x.addSlot name).Named := by
  rw [Index.addSlot]
  split
  · exact h
  · intro k
    rw [List.lookup_append, List.find?_append, Option.map_or, ← h, List.lookup_cons,
      Bool.beq_comm]
    have hslot : ([slotSymbol name x.symbols.length].find? fun s => Text.upperName s.name == k) =
        if name == k then some (slotSymbol name x.symbols.length) else none := by
      rw [List.find?_singleton]
      show (if Text.upperName name == k then _ else _) = _
      rw [hname]
    rw [hslot]
    cases name == k <;> rfl

/-- A slot is not added if a symbol has its name. -/
theorem Named.addSlot_of_any (h : x.Named) {name : String} (hname : Text.upperName name = name)
    (hany : (x.symbols.any fun s => Text.sameName s.name name) = true) : x.addSlot name = x := by
  rw [Index.addSlot, h.isSome_lookup hname, if_pos hany]

theorem Named.symbols_addSlot (h : x.Named) {name : String} (hname : Text.upperName name = name)
    (hany : ¬(x.symbols.any fun s => Text.sameName s.name name) = true) :
    (x.addSlot name).symbols = x.symbols ++ [slotSymbol name x.symbols.length] := by
  rw [Index.addSlot, h.isSome_lookup hname, if_neg hany]

/-- A slot that is added leaves the names of all other slots missing that were missing before. -/
theorem filter_missing_append {name : String} {names : List String}
    (hne : ∀ name' ∈ names, Text.upperName name ≠ Text.upperName name') (symbols : List Symbol)
    (i : Nat) :
    (names.filter fun name' => !(symbols ++ [slotSymbol name i]).any fun s =>
        Text.sameName s.name name') =
      names.filter fun name' => !symbols.any fun s => Text.sameName s.name name' := by
  refine List.filter_congr fun name' hmem => ?_
  have hslot : Text.sameName (slotSymbol name i).name name' = false := by
    rw [← Bool.not_eq_true, Text.sameName_iff_upperName]
    exact hne name' hmem
  rw [List.any_append, List.any_cons, List.any_nil, hslot, Bool.or_false, Bool.or_false]

/-- The slots are added behind the table in their order, those whose names no symbol has. -/
theorem Named.symbols_addSlots {names : List String} (h : x.Named)
    (hupper : ∀ name ∈ names, Text.upperName name = name) (hnodup : names.Nodup) :
    (names.foldl Index.addSlot x).Named ∧ (names.foldl Index.addSlot x).symbols =
      x.symbols ++ ((names.filter fun name =>
        !x.symbols.any fun s => Text.sameName s.name name).zipIdx.map fun (name, i) =>
          slotSymbol name (x.symbols.length + i)) := by
  -- over the names still to come; the table has grown by the slots before them
  induction names generalizing x with
  | nil => exact ⟨h, (List.append_nil _).symm⟩
  | cons name names ih =>
    obtain ⟨hname, hupper⟩ := List.forall_mem_cons.1 hupper
    obtain ⟨hfresh, hnodup⟩ := List.nodup_cons.1 hnodup
    obtain ⟨hnamed, hsymbols⟩ := ih (h.addSlot hname) hupper hnodup
    refine ⟨hnamed, hsymbols.trans ?_⟩
    by_cases hany : (x.symbols.any fun s => Text.sameName s.name name) = true
    · rw [List.filter_cons_of_neg (by simp [hany]), h.addSlot_of_any hname hany]
    · -- the slot takes the name, which none of the other slots has
      have hne : ∀ name' ∈ names, Text.upperName name ≠ Text.upperName name' := by
        intro name' hmem
        rw [hname, hupper name' hmem]
        rintro rfl
        exact hfresh hmem
      rw [h.symbols_addSlot hname hany, filter_missing_append hne,
        List.filter_cons_of_pos (by simp [hany]), List.zipIdx_cons, List.map_cons,
        List.zipIdx_succ, List.map_map, List.append_assoc, List.singleton_append,
        List.length_append]
      refine congrArg (x.symbols ++ slotSymbol name x.symbols.length :: ·) ?_
      refine List.map_congr_left fun ⟨name', i⟩ _ => congrArg (slotSymbol name') ?_
      show x.symbols.length + 1 + i = x.symbols.length + (i + 1)
      omega

theorem symbols_addAddresses (x : Index) : x.addAddresses.symbols = x.symbols := rfl

theorem Named.addAddresses (h : x.Named) : x.addAddresses.Named := h

/-- The table that is indexed is that of the script. -/
theorem named_ofSymbols (version : UInt8) (symbols : List Symbol) (code : Code) :
    (ofSymbols symbols).Named ∧
      (ofSymbols symbols).symbols = (ofParts version symbols code).symbols.toList := by
  have hupper : ∀ name ∈ slotNames, Text.upperName name = name := by decide
  have hnodup : slotNames.Nodup := by decide
  obtain ⟨hnamed, hsymbols⟩ := (named_ofNames symbols).symbols_addSlots hupper hnodup
  rw [ofSymbols, ofParts, List.toList_toArray, symbols_addAddresses, hsymbols]
  exact ⟨hnamed.addAddresses, rfl⟩

theorem addresses_addSlots (names : List String) :
    (names.foldl Index.addSlot x).addresses = x.addresses := by
  induction names generalizing x with
  | nil => rfl
  | cons name names ih =>
    refine (ih (x := x.addSlot name)).trans ?_
    rw [Index.addSlot]
    split <;> rfl

theorem addresses_ofSymbols (symbols : List Symbol) :
    (ofSymbols symbols).addresses =
      (Entries.enterAll (·.address) [] ((ofSymbols symbols).symbols.filter claims)).enterAll
        (·.address) ((ofSymbols symbols).symbols.filter fills) := by
  have hnil : (slotNames.foldl addSlot (ofNames symbols)).addresses = [] :=
    addresses_addSlots slotNames
  rw [ofSymbols, addAddresses, hnil]

/-- What is claimed or filled at an address is what an address is resolved to. -/
theorem find?_filter_claims (l : List Symbol) (a : UInt32) :
    ((l.filter claims).find? fun s => s.address == a) = l.find? (ownsBody a) ∧
      ((l.filter fills).find? fun s => s.address == a) = l.find? (mayNameBody a) := by
  have howns (s : Symbol) : ownsBody a s = (claims s && s.address == a) := by
    simp only [ownsBody, claims, bearsCode, Bool.and_assoc, Bool.and_comm, Bool.and_left_comm]
  have hmay (s : Symbol) : mayNameBody a s = (fills s && s.address == a) := by
    simp only [mayNameBody, fills, bearsCode, Bool.and_assoc, Bool.and_comm, Bool.and_left_comm]
  constructor
  · rw [List.find?_filter]
    exact congrArg (l.find? ·) (funext fun s => by simp [howns, Bool.beq_eq_decide_eq])
  · rw [List.find?_filter]
    exact congrArg (l.find? ·) (funext fun s => by simp [hmay, Bool.beq_eq_decide_eq])

end Index

variable {p : Script} {s : Symbol}

/-! ## The first symbol -/

/-- Whether a symbol has a property and none in front of it does. -/
def IsFirst (p : Script) (P : Symbol → Prop) (s : Symbol) : Prop :=
  ∃ i : Nat, p.symbols[i]? = some s ∧ P s ∧ ∀ j < i, ∀ t, p.symbols[j]? = some t → ¬P t

/-- What a search finds is the first symbol that passes. -/
theorem find?_eq_some_iff_isFirst {P : Symbol → Prop} {q : Symbol → Bool}
    (hq : ∀ t, q t = true ↔ P t) : p.symbols.find? q = some s ↔ p.IsFirst P s := by
  rw [Array.find?_eq_some_iff_getElem]
  constructor
  · rintro ⟨hs, i, hi, rfl, hbefore⟩
    refine ⟨i, Array.getElem?_eq_getElem hi, (hq _).1 hs, fun j hj t ht => ?_⟩
    obtain ⟨hjsize, rfl⟩ := Array.getElem?_eq_some_iff.1 ht
    have hno := hbefore j hj
    rwa [Bool.not_eq_true', Bool.eq_false_iff, Ne, hq] at hno
  · rintro ⟨i, hs, hP, hbefore⟩
    obtain ⟨hi, rfl⟩ := Array.getElem?_eq_some_iff.1 hs
    refine ⟨(hq _).2 hP, i, hi, rfl, fun j hj => ?_⟩
    rw [Bool.not_eq_true', Bool.eq_false_iff, Ne, hq]
    exact hbefore j hj _ (Array.getElem?_eq_getElem (Nat.lt_trans hj hi))

theorem find?_eq_none_iff {P : Symbol → Prop} {q : Symbol → Bool}
    (hq : ∀ t, q t = true ↔ P t) : p.symbols.find? q = none ↔ ∀ t ∈ p.symbols, ¬P t := by
  simp only [Array.find?_eq_none, hq]

/-! ## The index of a loaded script -/

section

variable {enc : Text.Encoding} {bytes : List UInt8}

/-- The symbols that are read are those that are not added. -/
theorem exists_index (hload : load enc bytes = .ok p) : ∃ version symbols code,
    p = ofParts version symbols code ∧ p.index = .ofSymbols symbols := by
  obtain ⟨version, symbols, code, rfl, -, -, hread, -⟩ := exists_parts_of_load hload
  refine ⟨version, symbols, code, rfl, congrArg Index.ofSymbols ?_⟩
  have hslots : ((missingSlots symbols).zipIdx.map fun (name, i) =>
      slotSymbol name (symbols.length + i)).filter (fun s => !s.isGenerated) = [] := by
    refine List.filter_eq_nil_iff.2 fun s hs => ?_
    obtain ⟨⟨name, i⟩, -, rfl⟩ := List.mem_map.1 hs
    rw [slotSymbol_isGenerated]
    simp
  rw [ofParts, List.toList_toArray, List.filter_append, hslots, List.append_nil]
  exact List.filter_eq_self.2 fun s hs => by simp [hread s hs]

/-- The table that is indexed is that of the script. -/
theorem symbols_index (hload : load enc bytes = .ok p) : p.index.symbols = p.symbols.toList := by
  obtain ⟨version, symbols, code, rfl, hindex⟩ := exists_index hload
  rw [hindex]
  exact (Index.named_ofSymbols version symbols code).2

/-- An address in the index leads to the symbol that it resolves to. -/
theorem lookup_addresses (hload : load enc bytes = .ok p) (a : UInt32) :
    p.index.addresses.lookup a = (p.symbolByAddress? a).map (·.index) := by
  obtain ⟨version, symbols, code, rfl, hindex⟩ := exists_index hload
  obtain ⟨-, hsymbols⟩ := Index.named_ofSymbols version symbols code
  rw [hindex, Index.addresses_ofSymbols, Entries.lookup_enterAll, Entries.lookup_enterAll,
    hsymbols, (Index.find?_filter_claims _ a).1, (Index.find?_filter_claims _ a).2,
    Array.find?_toList, Array.find?_toList, List.lookup_nil, Option.none_or, symbolByAddress?,
    Option.map_or]

theorem distinct_addresses (hload : load enc bytes = .ok p) : p.index.addresses.Distinct := by
  obtain ⟨version, symbols, code, rfl, hindex⟩ := exists_index hload
  rw [hindex, Index.addresses_ofSymbols]
  exact (Entries.Distinct.enterAll .nil _).enterAll _

end

end Script

end ScriptMachine
