import ScriptMachine.Proofs.Bodies
import ScriptMachine.Proofs.Index

/-!
# How addresses are resolved

An address stands for the first symbol that claims it, or else for the first one that fills it. The
host's functions, members and slots that are added do neither. The index of a script holds what each
address stands for. The bodies of the script are read off the index, whose entries come in any
order, and put in order by their addresses.

* `Script.Claims`, `Script.Fills` – whether a symbol claims an address, or only fills it.
* `Script.symbolByAddress?_eq_some_iff` – what an address stands for.
* `Script.symbolByAddress?_index` – the index leads to the same symbol.
* `Script.ranges_of_perm` – the bodies do not depend on the order of the entries.
* `Script.address_resolution` – how addresses are resolved, and what the bodies are.
-/

namespace ScriptMachine.Script

variable {p : Script} {enc : Text.Encoding} {bytes : List UInt8} {a : UInt32} {s : Symbol}

/-! ## Priority -/

/-- Whether a symbol may stand for an address. -/
structure Bears (a : UInt32) (s : Symbol) : Prop where
  address : s.address = a
  external : s.isExternal = false
  member : s.isMember = false
  generated : s.isGenerated = false

/-- Whether a symbol claims an address: it is constant, and a function, prototype or instance. -/
structure Claims (a : UInt32) (s : Symbol) : Prop extends Bears a s where
  const : s.isConst = true
  type : s.type = .func ∨ s.type = .proto ∨ s.type = .inst

/-- Whether a symbol fills an address that none claims: it is not constant, and a prototype or
instance. -/
structure Fills (a : UInt32) (s : Symbol) : Prop extends Bears a s where
  notConst : s.isConst = false
  type : s.type = .proto ∨ s.type = .inst

theorem ownsBody_iff : ownsBody a s = true ↔ Claims a s := by
  simp only [ownsBody, Bool.and_eq_true, beq_iff_eq, Bool.not_eq_true', Bool.or_eq_true]
  constructor
  · rintro ⟨⟨⟨⟨⟨ha, he⟩, hm⟩, hg⟩, hc⟩, ht⟩
    exact ⟨⟨ha, he, hm, hg⟩, hc, or_assoc.1 ht⟩
  · rintro ⟨⟨ha, he, hm, hg⟩, hc, ht⟩
    exact ⟨⟨⟨⟨⟨ha, he⟩, hm⟩, hg⟩, hc⟩, or_assoc.2 ht⟩

theorem mayNameBody_iff : mayNameBody a s = true ↔ Fills a s := by
  simp only [mayNameBody, Bool.and_eq_true, beq_iff_eq, Bool.not_eq_true', Bool.or_eq_true]
  constructor
  · rintro ⟨⟨⟨⟨⟨ha, he⟩, hm⟩, hg⟩, hc⟩, ht⟩
    exact ⟨⟨ha, he, hm, hg⟩, hc, ht⟩
  · rintro ⟨⟨ha, he, hm, hg⟩, hc, ht⟩
    exact ⟨⟨⟨⟨⟨ha, he⟩, hm⟩, hg⟩, hc⟩, ht⟩

/-- An address stands for the first symbol that claims it, or else the first one that fills it. -/
theorem symbolByAddress?_eq_some_iff : p.symbolByAddress? a = some s ↔
    p.IsFirst (Claims a) s ∨ (∀ t ∈ p.symbols, ¬Claims a t) ∧ p.IsFirst (Fills a) s := by
  rw [symbolByAddress?, Option.or_eq_some_iff, find?_eq_some_iff_isFirst fun _ => ownsBody_iff,
    find?_eq_some_iff_isFirst fun _ => mayNameBody_iff, find?_eq_none_iff fun _ => ownsBody_iff]

theorem symbolByAddress?_eq_none_iff :
    p.symbolByAddress? a = none ↔ ∀ t ∈ p.symbols, ¬Claims a t ∧ ¬Fills a t := by
  rw [symbolByAddress?, Option.or_eq_none_iff, find?_eq_none_iff fun _ => ownsBody_iff,
    find?_eq_none_iff fun _ => mayNameBody_iff]
  constructor
  · rintro ⟨hclaims, hfills⟩ t ht
    exact ⟨hclaims t ht, hfills t ht⟩
  · intro h
    exact ⟨fun t ht => (h t ht).1, fun t ht => (h t ht).2⟩

/-- What an address stands for has the address. -/
theorem bears_of_symbolByAddress? (h : p.symbolByAddress? a = some s) :
    s ∈ p.symbols ∧ Bears a s := by
  rcases symbolByAddress?_eq_some_iff.1 h with ⟨i, hs, hbears, -⟩ | ⟨-, i, hs, hbears, -⟩
  · exact ⟨Array.mem_of_getElem? hs, hbears.toBears⟩
  · exact ⟨Array.mem_of_getElem? hs, hbears.toBears⟩

section

variable (hload : load enc bytes = .ok p)

include hload

/-- It is found at its own index. -/
theorem symbolByIndex?_of_symbolByAddress? (h : p.symbolByAddress? a = some s) :
    p.symbolByIndex? s.index = some s := by
  obtain ⟨hmem, hbears⟩ := bears_of_symbolByAddress? h
  exact symbolByIndex?_of_not_generated hload hmem hbears.generated

/-! ## The index -/

theorem symbolByIndex?_index (i : UInt32) : p.index.symbolByIndex? i = p.symbolByIndex? i := by
  rw [Index.symbolByIndex?, symbols_index hload, Array.getElem?_toList, symbolByIndex?]

/-- The index leads to the symbol that an address stands for. -/
theorem symbolByAddress?_index (a : UInt32) :
    p.index.symbolByAddress? a = p.symbolByAddress? a := by
  rw [Index.symbolByAddress?, lookup_addresses hload]
  cases hs : p.symbolByAddress? a with
  | none => rfl
  | some s =>
    exact (symbolByIndex?_index hload _).trans (symbolByIndex?_of_symbolByAddress? hload hs)

/-- So does each entry under an address. -/
theorem symbolByIndex?_of_mem_addresses {e : UInt32 × UInt32} (he : e ∈ p.index.addresses) :
    p.index.symbolByIndex? e.2 = p.symbolByAddress? e.1 := by
  have hlookup := (distinct_addresses hload).lookup_eq_some_iff.2 he
  rw [← symbolByAddress?_index hload, Index.symbolByAddress?, hlookup, Option.bind_some]

/-- The entries lead to the symbols that their own addresses stand for. -/
theorem mem_filterMap_addresses {es : Entries UInt32} (hes : es.Perm p.index.addresses) :
    s ∈ es.filterMap (fun e => p.index.symbolByIndex? e.2) ↔
      p.symbolByAddress? s.address = some s := by
  rw [List.mem_filterMap]
  constructor
  · rintro ⟨e, he, hs⟩
    rw [symbolByIndex?_of_mem_addresses hload (hes.mem_iff.1 he)] at hs
    obtain ⟨-, hbears⟩ := bears_of_symbolByAddress? hs
    rw [hbears.address, hs]
  · intro hs
    have hlookup : p.index.addresses.lookup s.address = some s.index := by
      rw [lookup_addresses hload, hs, Option.map_some]
    refine ⟨(s.address, s.index), hes.mem_iff.2 ?_, ?_⟩
    · exact (distinct_addresses hload).lookup_eq_some_iff.1 hlookup
    · exact (symbolByIndex?_index hload _).trans (symbolByIndex?_of_symbolByAddress? hload hs)

/-- Different entries lead to symbols with different addresses. -/
theorem pairwise_filterMap_addresses {es : Entries UInt32} (hes : es.Perm p.index.addresses) :
    (es.filterMap fun e => p.index.symbolByIndex? e.2).Pairwise (·.address ≠ ·.address) := by
  have hdistinct := hes.symm.pairwise (distinct_addresses hload) fun h => h.symm
  refine List.pairwise_filterMap.2 (hdistinct.imp_of_mem fun he he' hne s hs t ht => ?_)
  -- a symbol has the address of the entry that leads to it
  rw [symbolByIndex?_of_mem_addresses hload (hes.mem_iff.1 he)] at hs
  rw [symbolByIndex?_of_mem_addresses hload (hes.mem_iff.1 he')] at ht
  obtain ⟨-, hsbears⟩ := bears_of_symbolByAddress? hs
  obtain ⟨-, htbears⟩ := bears_of_symbolByAddress? ht
  rwa [hsbears.address, htbears.address]

/-! ## Bodies -/

/-- The symbols with bodies are those that their own addresses stand for. -/
theorem mem_bodySymbols : s ∈ p.bodySymbols ↔ p.symbolByAddress? s.address = some s := by
  rw [bodySymbols, List.mem_mergeSort, List.mem_filter, Array.mem_toList_iff,
    Bool.and_eq_true, Bool.or_eq_true, ownsBody_iff, mayNameBody_iff]
  constructor
  · rintro ⟨hmem, hbears, hsame⟩
    have hgenerated : s.isGenerated = false := hbears.elim (·.generated) (·.generated)
    have hs := symbolByIndex?_of_not_generated hload hmem hgenerated
    cases hu : p.symbolByAddress? s.address with
    | none => rw [hu] at hsame; cases hsame
    | some u =>
      -- both are found at the index that they share
      rw [hu] at hsame
      have hindex : u.index = s.index := eq_of_beq hsame
      rw [← hindex, symbolByIndex?_of_symbolByAddress? hload hu] at hs
      exact hs
  · intro h
    obtain ⟨hmem, -⟩ := bears_of_symbolByAddress? h
    refine ⟨hmem, ?_, by rw [h]; exact beq_self_eq_true _⟩
    rcases symbolByAddress?_eq_some_iff.1 h with ⟨i, -, hs, -⟩ | ⟨-, i, -, hs, -⟩
    · exact .inl hs
    · exact .inr hs

/-- The addresses that stand for a symbol are those at which a body begins. -/
theorem symbolByAddress?_eq_some_iff_mem_bodies :
    p.symbolByAddress? a = some s ↔ ∃ b ∈ p.bodies, b.symbol = s ∧ s.address = a := by
  have hbodies : (∃ b ∈ p.bodies, b.symbol = s) ↔ s ∈ p.bodySymbols := by
    rw [← map_symbol_withStops (UInt32.ofNat p.code.size) p.bodySymbols, List.mem_map]
    rfl
  constructor
  · intro h
    obtain ⟨-, hbears⟩ := bears_of_symbolByAddress? h
    obtain ⟨b, hb, hs⟩ := hbodies.2 ((mem_bodySymbols hload).2 (hbears.address ▸ h))
    exact ⟨b, hb, hs, hbears.address⟩
  · rintro ⟨b, hb, hs, rfl⟩
    exact (mem_bodySymbols hload).1 (hbodies.1 ⟨b, hb, hs⟩)

/-- The bodies that are read off the index are the same in whatever order its entries come. -/
theorem ranges_of_perm {es : Entries UInt32} (hes : es.Perm p.index.addresses) :
    p.index.ranges (UInt32.ofNat p.code.size) es = p.bodies := by
  have hranges := pairwise_mergeSort_address (pairwise_filterMap_addresses hload hes)
  have hbodies := pairwise_bodySymbols hload
  have hnodup {l : List Symbol} (h : l.Pairwise (·.address < ·.address)) : l.Nodup :=
    h.imp fun hlt heq => UInt32.ne_of_lt hlt (congrArg Symbol.address heq)
  -- two lists in strict order that have the same members
  refine congrArg (withStops _) (List.Perm.eq_of_pairwise ?_ hranges hbodies ?_)
  · exact fun s t _ _ hlt hgt => absurd hgt (UInt32.lt_asymm hlt)
  · refine (List.perm_ext_iff_of_nodup (hnodup hranges) (hnodup hbodies)).2 fun s => ?_
    rw [List.mem_mergeSort, mem_filterMap_addresses hload hes, mem_bodySymbols hload]

/-- A body ends where the next one begins, and the last one with the code. -/
theorem stop_of_getElem?_bodies {n : Nat} {b : Body} (hb : p.bodies[n]? = some b) :
    (∀ c, p.bodies[n + 1]? = some c → b.stop = c.symbol.address) ∧
      (p.bodies[n + 1]? = none → b.stop.toNat = p.code.size) := by
  rw [bodies, getElem?_withStops, Option.map_eq_some_iff] at hb
  obtain ⟨s, -, rfl⟩ := hb
  simp only [bodies, getElem?_withStops]
  constructor
  · intro c hc
    obtain ⟨t, ht, rfl⟩ := Option.map_eq_some_iff.1 hc
    rw [ht]
    rfl
  · intro hnone
    rw [Option.map_eq_none_iff.1 hnone]
    exact UInt32.toNat_ofNat_of_lt' (size_code_of_load hload)

end

/-- An address is resolved in a loaded script to the first symbol that claims it, or else to the
first one that fills it, and to none if there is no such symbol; the index answers the same. A body
begins at each address that is resolved, and only there, and has the symbol that the address is
resolved to. The bodies come in the order of their addresses, each once. A body ends where the next
one begins, and the last one with the code. They are read off the index, and are the same in
whatever order its entries come. -/
theorem address_resolution (hload : load enc bytes = .ok p) :
    (∀ a s, p.symbolByAddress? a = some s ↔
      p.IsFirst (Claims a) s ∨ (∀ t ∈ p.symbols, ¬Claims a t) ∧ p.IsFirst (Fills a) s) ∧
    (∀ a, p.symbolByAddress? a = none ↔ ∀ t ∈ p.symbols, ¬Claims a t ∧ ¬Fills a t) ∧
    (∀ a, p.index.symbolByAddress? a = p.symbolByAddress? a) ∧
    (∀ a s, p.symbolByAddress? a = some s ↔ ∃ b ∈ p.bodies, b.symbol = s ∧ s.address = a) ∧
    p.bodies.Pairwise (·.symbol.address < ·.symbol.address) ∧
    (∀ n b, p.bodies[n]? = some b →
      (∀ c, p.bodies[n + 1]? = some c → b.stop = c.symbol.address) ∧
      (p.bodies[n + 1]? = none → b.stop.toNat = p.code.size)) ∧
    ∀ es : Entries UInt32, es.Perm p.index.addresses →
      p.index.ranges (UInt32.ofNat p.code.size) es = p.bodies :=
  ⟨fun _ _ => symbolByAddress?_eq_some_iff, fun _ => symbolByAddress?_eq_none_iff,
    symbolByAddress?_index hload, fun _ _ => symbolByAddress?_eq_some_iff_mem_bodies hload,
    pairwise_bodies hload, fun _ _ hb => stop_of_getElem?_bodies hload hb,
    fun _ hes => ranges_of_perm hload hes⟩

/-- A script in which two symbols have each address of a body. -/
def contested : Script :=
  .ofParts 50
    [{ Symbol.blank "" 0 .inst none with count := 0 }, .body "" 1 0,
      { Symbol.blank "" 2 .proto none with count := 0, address := 5 },
      { Symbol.blank "" 3 .inst none with count := 0, address := 5 }]
    #[64, 1, 0, 0, 0, 60]

/-- The script as it is compiled. -/
def contestedBytes : List UInt8 :=
  50 :: [4, 0, 0, 0, 0, 0, 0, 0x7000, 0, 0, 0, 0, 0, 0, 0xFFFFFFFF, 0, 0, 0x15000, 0, 0, 0, 0, 0,
    0, 0xFFFFFFFF, 0, 0, 0x6000, 0, 0, 0, 0, 0, 5, 0xFFFFFFFF, 0, 0, 0x7000, 0, 0, 0, 0, 0, 5,
    0xFFFFFFFF, 6].flatMap LittleEndian.encode ++ [64, 1, 0, 0, 0, 60]

theorem bodies_contested : contested.bodies =
    [⟨.body "" 1 0, 5⟩, ⟨{ Symbol.blank "" 2 .proto none with count := 0, address := 5 }, 6⟩] := by
  have hs : contested.bodySymbols =
      [.body "" 1 0, { Symbol.blank "" 2 .proto none with count := 0, address := 5 }] :=
    List.mergeSort_of_pairwise (by decide)
  rw [bodies, hs]
  rfl

set_option maxRecDepth 1000 in
/-- The function claims its address although a variable stands before it in the table, and of the
two symbols that fill the other address the first one is taken. The entries of the index lead to the
same bodies in the order of their addresses and in the opposite order. -/
theorem address_resolution_contested :
    load .windows1252 contestedBytes = .ok contested ∧
      contested.IsFirst (Claims 0) (.body "" 1 0) ∧
      ¬(∃ t ∈ contested.symbols, Claims 5 t) ∧
      (contested.symbolByAddress? 5).map (·.index) = some 2 ∧
      contested.index.symbolByAddress? 6 = none ∧
      contested.index.ranges 6 [(5, 2), (0, 1)] =
        [⟨.body "" 1 0, 5⟩,
          ⟨{ Symbol.blank "" 2 .proto none with count := 0, address := 5 }, 6⟩] := by
  have hload : load .windows1252 contestedBytes = .ok contested := rfl
  obtain ⟨hsome, -, hindex, -, -, -, hranges⟩ := address_resolution hload
  have hfunction : contested.symbolByAddress? 0 = some (.body "" 1 0) := rfl
  have hproto : contested.symbolByAddress? 5 =
      some { Symbol.blank "" 2 .proto none with count := 0, address := 5 } := rfl
  have hentries : List.Perm [(5, 2), (0, 1)] contested.index.addresses := .swap _ _ []
  refine ⟨hload, ?_, ?_, congrArg (Option.map (·.index)) hproto, (hindex 6).trans rfl,
    (hranges _ hentries).trans bodies_contested⟩
  · rcases (hsome _ _).1 hfunction with h | ⟨-, i, -, hfills, -⟩
    · exact h
    · cases hfills.notConst
  · rcases (hsome _ _).1 hproto with ⟨i, -, hclaims, -⟩ | ⟨hnone, -⟩
    · cases hclaims.const
    · exact fun ⟨t, ht, hclaims⟩ => hnone t ht hclaims

end ScriptMachine.Script
