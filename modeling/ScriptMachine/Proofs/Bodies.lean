import ScriptMachine.Listing.Basic
import ScriptMachine.Proofs.Decoding
import ScriptMachine.Proofs.Usable

/-!
# Where bodies lie

The bodies of a script follow one another by address, each up to the next. The addresses are those
that the script stores: one may lie behind the code or inside an instruction of another body, and
then a listing loses a body, or shows an instruction of a body that ends behind it.

* `Script.pairwise_bodySymbols` – the symbols with bodies have different addresses, in order.
* `Script.pairwise_bodies` – so have the bodies.
* `Script.Splits` – whether a body begins inside an instruction.
* `Script.Partitioned` – whether bodies and their instructions divide the code.
* `Script.bodies_apart` – what bodies and their instructions have in common otherwise.
-/

namespace ScriptMachine.Script

variable {p : Script} {enc : Text.Encoding} {bytes : List UInt8}

/-! ## The symbols with bodies -/

/-- A slot that the loader adds has no body. -/
theorem hasBody_slotSymbol (name : String) (i : Nat) (a : UInt32) :
    (ownsBody a (slotSymbol name i) || mayNameBody a (slotSymbol name i)) = false := by
  simp only [ownsBody, mayNameBody, slotSymbol_isGenerated, Bool.not_true, Bool.and_false,
    Bool.false_and, Bool.or_false]

/-- The index of a symbol with a body is its position. -/
theorem toNat_index_of_hasBody (hload : load enc bytes = .ok p) {j : Nat} {s : Symbol}
    {a : UInt32} (hs : p.symbols[j]? = some s)
    (hbody : (ownsBody a s || mayNameBody a s) = true) : s.index.toNat = j := by
  rcases lt_size_or_slot hload hs with ⟨hlt, -⟩ | ⟨name, i, rfl⟩
  · rw [index_of_getElem? hload hs, UInt32.toNat_ofNat_of_lt' hlt]
  · rw [hasBody_slotSymbol] at hbody
    cases hbody

/-- An address resolves to one symbol. -/
theorem index_eq_of_resolves {s t : Symbol}
    (hs : (p.symbolByAddress? s.address).any (·.index == s.index) = true)
    (ht : (p.symbolByAddress? t.address).any (·.index == t.index) = true)
    (ha : s.address = t.address) : s.index = t.index := by
  rw [← ha] at ht
  cases hu : p.symbolByAddress? s.address with
  | none => simp [hu] at hs
  | some u =>
    rw [hu] at hs ht
    have hs : u.index = s.index := beq_iff_eq.1 hs
    have ht : u.index = t.index := beq_iff_eq.1 ht
    exact hs.symm.trans ht

/-- Symbols with different addresses are put in order. -/
theorem pairwise_mergeSort_address {l : List Symbol} (hl : l.Pairwise (·.address ≠ ·.address)) :
    (l.mergeSort fun a b => a.address ≤ b.address).Pairwise (·.address < ·.address) := by
  have hne := (List.mergeSort_perm l fun a b => a.address ≤ b.address).symm.pairwise hl
    fun h => h.symm
  have hle : (l.mergeSort fun a b => a.address ≤ b.address).Pairwise
      fun s t => decide (s.address ≤ t.address) = true :=
    List.pairwise_mergeSort (by simpa using fun _ _ _ => UInt32.le_trans)
      (by simpa using fun _ _ => UInt32.le_total _ _) _
  exact hne.imp₂ (fun s t hne hle => UInt32.lt_of_le_of_ne (of_decide_eq_true hle) hne) hle

/-- No two symbols with bodies have the same address, since an address resolves to one of them
only. -/
theorem pairwise_bodySymbols (hload : load enc bytes = .ok p) :
    p.bodySymbols.Pairwise (·.address < ·.address) := by
  refine pairwise_mergeSort_address ?_
  rw [List.pairwise_filter]
  refine List.pairwise_iff_getElem.2 fun i j hi hj hij hs ht ha => ?_
  obtain ⟨hs, hsame⟩ := Bool.and_eq_true_iff.1 hs
  obtain ⟨ht, htsame⟩ := Bool.and_eq_true_iff.1 ht
  -- symbols with bodies are numbered by their positions
  have heq := congrArg UInt32.toNat (index_eq_of_resolves hsame htsame ha)
  have hsi := Array.getElem?_toList.symm.trans (List.getElem?_eq_getElem hi)
  have htj := Array.getElem?_toList.symm.trans (List.getElem?_eq_getElem hj)
  rw [toNat_index_of_hasBody hload hsi hs, toNat_index_of_hasBody hload htj ht] at heq
  exact absurd heq (Nat.ne_of_lt hij)

/-! ## Ranges -/

theorem map_symbol_withStops (stop : UInt32) (l : List Symbol) :
    (withStops stop l).map (·.symbol) = l := by
  induction l with
  | nil => rfl
  | cons s l ih =>
    cases l with
    | nil => rfl
    | cons t l => exact congrArg (s :: ·) ih

theorem symbol_mem_of_mem_withStops {stop : UInt32} {l : List Symbol} {b : Body}
    (hb : b ∈ withStops stop l) : b.symbol ∈ l := by
  have hmem : b.symbol ∈ (withStops stop l).map (·.symbol) := List.mem_map_of_mem hb
  rwa [map_symbol_withStops] at hmem

/-- Where the range at a position ends. -/
theorem getElem?_withStops (stop : UInt32) (l : List Symbol) (n : Nat) :
    (withStops stop l)[n]? =
      l[n]?.map fun s => ⟨s, (l[n + 1]?.map (·.address)).getD stop⟩ := by
  induction l generalizing n with
  | nil => rfl
  | cons s l ih =>
    cases l with
    | nil => cases n <;> rfl
    | cons t l =>
      cases n with
      | zero => rfl
      | succ n => exact ih n

/-- A range ends where another begins, or it is the last one. -/
theorem stop_of_mem_withStops {stop : UInt32} {l : List Symbol}
    (hl : l.Pairwise (·.address < ·.address)) {b : Body} (hb : b ∈ withStops stop l) :
    b.stop = stop ∨ ∃ t ∈ l, b.stop = t.address ∧ b.symbol.address < t.address := by
  obtain ⟨n, hn⟩ := List.getElem?_of_mem hb
  rw [getElem?_withStops, Option.map_eq_some_iff] at hn
  obtain ⟨s, hs, rfl⟩ := hn
  cases ht : l[n + 1]? with
  | none => exact .inl rfl
  | some t =>
    obtain ⟨hn, rfl⟩ := List.getElem?_eq_some_iff.1 hs
    obtain ⟨hn', rfl⟩ := List.getElem?_eq_some_iff.1 ht
    refine .inr ⟨_, List.getElem_mem hn', rfl, ?_⟩
    exact List.pairwise_iff_getElem.1 hl n (n + 1) hn hn' (Nat.lt_succ_self n)

/-- No range reaches into one behind it. -/
theorem pairwise_withStops (stop : UInt32) {l : List Symbol}
    (hl : l.Pairwise (·.address < ·.address)) :
    (withStops stop l).Pairwise fun b c => b.stop ≤ c.symbol.address := by
  induction l with
  | nil => exact .nil
  | cons s l ih =>
    cases l with
    | nil => exact List.pairwise_singleton _ _
    | cons t l =>
      obtain ⟨-, hl⟩ := List.pairwise_cons.1 hl
      refine List.pairwise_cons.2 ⟨fun c hc => ?_, ih hl⟩
      rcases List.mem_cons.1 (symbol_mem_of_mem_withStops hc) with h | h
      · exact UInt32.le_of_eq (congrArg Symbol.address h.symm)
      · exact UInt32.le_of_lt ((List.pairwise_cons.1 hl).1 _ h)

/-- Whether some instructions are what a listing shows of a body. -/
def Decodes (p : Script) (b : Body) (is : List Instruction) : Prop :=
  p.decodeRange b.symbol.address b.stop = .ok is

/-- A body and its instructions, as a listing shows them. -/
def listed (p : Script) (b : Body) (is : List Instruction) : ListedBody :=
  ⟨b.symbol.name, b.symbol.address, is.map p.listInstruction⟩

/-- Whether a body begins inside an instruction. -/
def Splits (p : Script) (i : Instruction) : Prop :=
  ∃ b ∈ p.bodies, i.address < b.symbol.address ∧ b.symbol.address < i.next

theorem mem_bodies_listing {l : ListedBody} :
    l ∈ p.listing.bodies ↔ ∃ b ∈ p.bodies, ∃ is, p.Decodes b is ∧ l = p.listed b is := by
  refine List.mem_filterMap.trans (exists_congr fun b => and_congr_right fun _ => ?_)
  rw [listBody]
  cases h : p.decodeRange b.symbol.address b.stop with
  | ok is =>
    constructor
    · intro hl
      exact ⟨is, h, (Option.some.inj hl).symm⟩
    · rintro ⟨is', h', rfl⟩
      obtain rfl := Except.ok.inj (h.symm.trans h')
      rfl
  | error e =>
    refine iff_of_false nofun ?_
    rintro ⟨is, h', -⟩
    cases h.symm.trans h'

section

variable (hload : load enc bytes = .ok p)

include hload

/-- The bodies come in the order of their addresses. -/
theorem pairwise_bodies : p.bodies.Pairwise (·.symbol.address < ·.symbol.address) := by
  have h := pairwise_bodySymbols hload
  rwa [← map_symbol_withStops (UInt32.ofNat p.code.size) p.bodySymbols, List.pairwise_map] at h

theorem stop_of_mem_bodies {b : Body} (hb : b ∈ p.bodies) :
    b.stop.toNat = p.code.size ∨
      ∃ c ∈ p.bodies, b.stop = c.symbol.address ∧ b.symbol.address < c.symbol.address := by
  rcases stop_of_mem_withStops (pairwise_bodySymbols hload) hb with h | ⟨t, ht, h⟩
  · refine .inl ?_
    rw [h, UInt32.toNat_ofNat_of_lt' (size_code_of_load hload)]
  · rw [← map_symbol_withStops (UInt32.ofNat p.code.size) p.bodySymbols] at ht
    obtain ⟨c, hc, rfl⟩ := List.mem_map.1 ht
    exact .inr ⟨c, hc, h⟩

/-- If no body begins behind the code, all ranges lie within it. -/
theorem bounded_of_within (hwithin : ∀ b ∈ p.bodies, b.symbol.address.toNat ≤ p.code.size)
    {b : Body} (hb : b ∈ p.bodies) : b.symbol.address ≤ b.stop ∧ b.stop.toNat ≤ p.code.size := by
  rcases stop_of_mem_bodies hload hb with h | ⟨c, hc, h, hlt⟩
  · exact ⟨UInt32.le_iff_toNat_le.2 (h ▸ hwithin b hb), Nat.le_of_eq h⟩
  · rw [h]
    exact ⟨UInt32.le_of_lt hlt, hwithin c hc⟩

/-- An instruction of a body begins inside the range and ends within the code. Only the last one may
end behind the range, and then another body begins inside it. -/
theorem inside_or_splits {b : Body} (hb : b ∈ p.bodies) {is : List Instruction}
    (h : p.Decodes b is) {i : Instruction} (hi : i ∈ is) :
    (b.symbol.address ≤ i.address ∧ i.address < b.stop ∧ i.next.toNat ≤ p.code.size) ∧
      (i.next ≤ b.stop ∨ i ∉ is.dropLast ∧ p.Splits i) := by
  have hsize := size_code_of_load hload
  obtain ⟨z, hl, -, hstop⟩ := (decodeRange_eq_ok hsize).1 h
  obtain ⟨hge, -, -, hnext⟩ := hl.of_mem hsize hi
  refine ⟨⟨hge, hstop i hi, hnext⟩, ?_⟩
  by_cases hle : i.next ≤ b.stop
  · exact .inl hle
  refine .inr ⟨fun hinit => hle (UInt32.le_of_lt (hl.next_lt_of_dropLast hstop hinit)), ?_⟩
  -- nothing ends behind the code, so this is not the last range
  rcases stop_of_mem_bodies hload hb with h | ⟨c, hc, h, -⟩
  · exact absurd (UInt32.le_iff_toNat_le.2 (h ▸ hnext)) hle
  · exact ⟨c, hc, h ▸ hstop i hi, h ▸ UInt32.not_le.1 hle⟩

/-- Bodies have a byte in common only if another body begins inside an instruction of the first. -/
theorem pairwise_apart_or_splits : p.bodies.Pairwise fun b c => b.stop ≤ c.symbol.address ∧
    ∀ is js, p.Decodes b is → p.Decodes c js → ∀ i ∈ is, ∀ j ∈ js,
      i.next ≤ j.address ∨ p.Splits i := by
  refine (pairwise_withStops _ (pairwise_bodySymbols hload)).imp_of_mem fun hb hc hle => ⟨hle, ?_⟩
  intro is js his hjs i hi j hj
  obtain ⟨-, hnext | ⟨-, hsplits⟩⟩ := inside_or_splits hload hb his hi
  · obtain ⟨⟨hge, -⟩, -⟩ := inside_or_splits hload hc hjs hj
    exact .inl (UInt32.le_trans hnext (UInt32.le_trans hle hge))
  · exact .inr hsplits

end

/-! ## Dividing the code -/

/-- Whether the bodies of a script divide its code: the ranges lie within it, the instructions of a
body lie completely inside its range and have no byte in common with those of another body, and no
body that decodes up to the end of the code is left out of a listing. -/
structure Partitioned (p : Script) : Prop where
  bounded : ∀ b ∈ p.bodies, b.symbol.address ≤ b.stop ∧ b.stop.toNat ≤ p.code.size
  inside : ∀ b ∈ p.bodies, ∀ is, p.Decodes b is → ∀ i ∈ is,
    b.symbol.address ≤ i.address ∧ i.next ≤ b.stop
  apart : p.bodies.Pairwise fun b c => ∀ is js, p.Decodes b is → p.Decodes c js →
    ∀ i ∈ is, ∀ j ∈ js, i.next ≤ j.address
  decodes : ∀ b ∈ p.bodies, ∀ is,
    p.decodeRange b.symbol.address (UInt32.ofNat p.code.size) = .ok is → ∃ js, p.Decodes b js

/-- A script with four bodies: the second begins inside the first instruction of the first one, and
the last behind the code. -/
def overlapping : Script :=
  .ofParts 50 [.body "" 0 0, .body "" 1 3, .body "" 2 5, .body "" 3 1000] #[64, 1, 0, 0, 0, 60]

/-- The script as it is compiled. -/
def overlappingBytes : List UInt8 :=
  50 :: [4, 0, 0, 0, 0, 0, 0, 0x15000, 0, 0, 0, 0, 0, 0, 0xFFFFFFFF, 0, 0, 0x15000, 0, 0, 0, 0, 0,
    3, 0xFFFFFFFF, 0, 0, 0x15000, 0, 0, 0, 0, 0, 5, 0xFFFFFFFF, 0, 0, 0x15000, 0, 0, 0, 0, 0, 1000,
    0xFFFFFFFF, 6].flatMap LittleEndian.encode ++ [64, 1, 0, 0, 0, 60]

theorem bodies_overlapping : overlapping.bodies =
    [⟨.body "" 0 0, 3⟩, ⟨.body "" 1 3, 5⟩, ⟨.body "" 2 5, 1000⟩, ⟨.body "" 3 1000, 6⟩] := by
  have hs : overlapping.bodySymbols =
      [.body "" 0 0, .body "" 1 3, .body "" 2 5, .body "" 3 1000] :=
    List.mergeSort_of_pairwise (by decide)
  rw [bodies, hs]
  rfl

set_option maxRecDepth 1000 in
/-- The bodies of a script that is loaded need not divide its code. Here a range ends behind the
code and another one before it begins. The first body has an instruction that ends behind its range
and two bytes in common with the second, and the third is left out, although its only instruction
ends with the code. -/
theorem not_partitioned :
    load .windows1252 overlappingBytes = .ok overlapping ∧ ¬overlapping.Partitioned ∧
      ∃ a ∈ overlapping.bodies, ∃ b ∈ overlapping.bodies, ∃ c ∈ overlapping.bodies,
        ∃ d ∈ overlapping.bodies,
        (overlapping.Decodes a [⟨0, .pushi, .immediate 1⟩] ∧ a.stop = 3) ∧
        overlapping.Decodes b [⟨3, .add, .none⟩, ⟨4, .add, .none⟩] ∧
        (c.stop = 1000 ∧ overlapping.decodeRange c.symbol.address 6 = .ok [⟨5, .rsr, .none⟩] ∧
          ∀ is, ¬overlapping.Decodes c is) ∧
        d.symbol.address = 1000 ∧ d.stop = 6 := by
  rw [bodies_overlapping]
  refine ⟨rfl, fun h => ?_, _, .head _, _, .tail _ (.head _), _, .tail _ (.tail _ (.head _)), _,
    .tail _ (.tail _ (.tail _ (.head _))), ⟨rfl, rfl⟩, rfl, ⟨rfl, rfl, ?_⟩, rfl, rfl⟩
  · have hd : (⟨.body "" 3 1000, 6⟩ : Body) ∈ overlapping.bodies := by
      rw [bodies_overlapping]
      simp
    exact absurd (h.bounded _ hd).1 (by decide)
  · intro is h
    have herror : overlapping.decodeRange 5 1000 = .error (.outOfBounds 6 6) := rfl
    cases herror.symm.trans h

/-- The bodies of a script that is loaded come in the order of their addresses, which all differ,
and each lies in front of the next. A listing shows those that decode. Each of their instructions
begins inside the range of the body and ends within the code, and also within the range, unless it
is the last one and another body begins inside it; so two bodies have a byte in common only where a
body begins inside an instruction of another. What decodes from the beginning of a body up to any
address behind its range decodes up to the end of the range. If no body begins behind the code, all
ranges lie within the code. If moreover no body begins inside an instruction that is shown of
another, the bodies divide the code. -/
theorem bodies_apart (hload : load enc bytes = .ok p) :
    p.bodies.Pairwise (·.symbol.address < ·.symbol.address) ∧
    p.bodies.Pairwise (fun b c => b.stop ≤ c.symbol.address ∧
      ∀ is js, p.Decodes b is → p.Decodes c js → ∀ i ∈ is, ∀ j ∈ js,
        i.next ≤ j.address ∨ p.Splits i) ∧
    (∀ l, l ∈ p.listing.bodies ↔ ∃ b ∈ p.bodies, ∃ is, p.Decodes b is ∧ l = p.listed b is) ∧
    (∀ b ∈ p.bodies,
      (∀ is, p.Decodes b is → ∀ i ∈ is,
        (b.symbol.address ≤ i.address ∧ i.address < b.stop ∧ i.next.toNat ≤ p.code.size) ∧
          (i.next ≤ b.stop ∨ i ∉ is.dropLast ∧ p.Splits i)) ∧
      ∀ stop is, b.stop ≤ stop → p.decodeRange b.symbol.address stop = .ok is →
        p.Decodes b (is.takeWhile (·.address < b.stop))) ∧
    ((∀ b ∈ p.bodies, b.symbol.address.toNat ≤ p.code.size) →
      (∀ b ∈ p.bodies, b.symbol.address ≤ b.stop ∧ b.stop.toNat ≤ p.code.size) ∧
      ((∀ b ∈ p.bodies, ∀ is, p.Decodes b is → ∀ i ∈ is, ¬p.Splits i) → p.Partitioned)) := by
  have hsize := size_code_of_load hload
  have hpairwise := pairwise_apart_or_splits hload
  refine ⟨pairwise_bodies hload, hpairwise, fun _ => mem_bodies_listing, fun b hb =>
    ⟨fun is his i hi => inside_or_splits hload hb his hi,
      fun stop is hle his => decodeRange_of_le hsize his hle⟩,
    fun hwithin => ⟨fun b hb => bounded_of_within hload hwithin hb, fun hsplits => ?_⟩⟩
  refine ⟨fun b hb => bounded_of_within hload hwithin hb, fun b hb is his i hi => ?_, ?_,
    fun b hb is his => ?_⟩
  · obtain ⟨⟨hge, -⟩, hnext | ⟨-, h⟩⟩ := inside_or_splits hload hb his hi
    · exact ⟨hge, hnext⟩
    · exact absurd h (hsplits b hb is his i hi)
  · refine hpairwise.imp_of_mem fun hb _ h is js his hjs i hi j hj => ?_
    exact (h.2 is js his hjs i hi j hj).resolve_right (hsplits _ hb is his i hi)
  · have hle : b.stop ≤ UInt32.ofNat p.code.size := by
      obtain ⟨-, hle⟩ := bounded_of_within hload hwithin hb
      rwa [UInt32.le_iff_toNat_le, UInt32.toNat_ofNat_of_lt' hsize]
    exact ⟨_, decodeRange_of_le hsize his hle⟩

/-- A script with two bodies, the second behind the first. -/
def adjacent : Script :=
  .ofParts 50 [.body "" 0 0, .body "" 1 6] #[64, 1, 0, 0, 0, 60, 60]

/-- The script as it is compiled. -/
def adjacentBytes : List UInt8 :=
  50 :: [2, 0, 0, 0, 0, 0x15000, 0, 0, 0, 0, 0, 0, 0xFFFFFFFF, 0, 0, 0x15000, 0, 0, 0, 0, 0, 6,
    0xFFFFFFFF, 7].flatMap LittleEndian.encode ++ [64, 1, 0, 0, 0, 60, 60]

theorem bodies_adjacent : adjacent.bodies = [⟨.body "" 0 0, 6⟩, ⟨.body "" 1 6, 7⟩] := by
  have hs : adjacent.bodySymbols = [.body "" 0 0, .body "" 1 6] :=
    List.mergeSort_of_pairwise (by decide)
  rw [bodies, hs]
  rfl

set_option maxRecDepth 1000 in
/-- No instruction of these two bodies reaches into another body, so they divide the code. -/
theorem bodies_apart_of_adjacent :
    load .windows1252 adjacentBytes = .ok adjacent ∧ adjacent.Partitioned := by
  have hload : load .windows1252 adjacentBytes = .ok adjacent := rfl
  obtain ⟨-, -, -, -, hwithin⟩ := bodies_apart hload
  refine ⟨hload, (hwithin ?_).2 ?_⟩
  · rw [bodies_adjacent]
    decide
  · simp only [Splits, bodies_adjacent, List.forall_mem_cons, List.exists_mem_cons_iff]
    refine ⟨fun is his => ?_, fun is his => ?_, nofun⟩
    · obtain rfl := Except.ok.inj (Eq.symm his)
      decide
    · obtain rfl := Except.ok.inj (Eq.symm his)
      decide

end ScriptMachine.Script
