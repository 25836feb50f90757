import ScriptMachine.Assembler.Declaration
import ScriptMachine.Proofs.Layout
import ScriptMachine.Proofs.SymbolTable

/-!
# Loading what was assembled

Every declaration appends symbols that are well formed, and every item of a body leaves the symbols
as they are or appends a literal. So the loader reads all symbols of an assembled script back, and
its code behind them.

* `Draft.WellFormed` – whether all symbols of a draft are well formed and numbered one by one.
* `Declaration.counts` – the numbers of elements, members and parameters that a declaration asks
  for.
* `Draft.reads_bytes` – what is read from the bytes of a draft.
* `load_assemble` – an assembled script is loaded as it was assembled.
* `Draft.WellFormed.lt_size_of_load` – how much can be assembled for that.
-/

namespace ScriptMachine.Assembler

open Reader (Reads)
open ScriptMachine.Symbol (Stores)

/-! ## Well-formed symbols -/

theorem stores_zeros (type : DataType) (n : UInt32) :
    Stores type n.toNat ⟨0, 0, zeros type n⟩ := by
  cases type with
  | int =>
    have h := Stores.ints (List.replicate n.toNat 0)
    rwa [List.length_replicate] at h
  | float =>
    have h := Stores.floats (List.replicate n.toNat .zero)
    rwa [List.length_replicate] at h
  | string =>
    have h := Stores.strings (List.replicate n.toNat "")
    rwa [List.length_replicate] at h
  | void => exact .void _
  | cls => exact .cls _ 0
  | func => exact .func _ 0
  | proto => exact .proto _ 0
  | inst => exact .inst _ 0

theorem toNat_ofNat_of_le {n : Nat} (h : n ≤ 4095) : (UInt32.ofNat n).toNat = n :=
  UInt32.toNat_ofNat_of_lt' (Nat.lt_of_le_of_lt h (by decide))

theorem toNat_ofNat_le {n : Nat} (h : n ≤ 4095) : (UInt32.ofNat n).toNat ≤ 4095 :=
  (toNat_ofNat_of_le h).symm ▸ h

/-- A symbol that is no member is well formed if its payload belongs to its type. -/
theorem wellFormed_of_stores {s : Symbol} (flags : SymbolFlags) (hs : s.flags = flags)
    (hf : flags.bits.toNat < 32 ∧ flags.contains .member = false) (hc : s.count.toNat ≤ 4095)
    (hp : Stores s.type s.count.toNat s.payload) : s.WellFormed := by
  have hm : s.isMember = false := (congrArg (·.contains .member) hs).trans hf.2
  refine ⟨⟨hc, hs ▸ hf.1⟩, fun h => ?_, fun _ => hp⟩
  exact absurd (hm.symm.trans h) Bool.false_ne_true

theorem wellFormed_variable (name : String) (type : DataType) {n : UInt32} (h : n.toNat ≤ 4095) :
    Symbol.WellFormed
      { Symbol.blank name 0 type none with count := n, data := zeros type n } :=
  wellFormed_of_stores .none rfl (by decide) h (stores_zeros type n)

theorem wellFormed_parameters (owner : String) (params : List DataType) :
    ∀ s ∈ parameterSymbols owner params, s.WellFormed := by
  intro s hs
  obtain ⟨⟨type, i⟩, -, rfl⟩ := List.mem_map.1 hs
  exact wellFormed_variable _ type (by decide : (1 : UInt32).toNat ≤ 4095)

/-- A function of the script or of the host, by the flags it is given. -/
theorem wellFormed_function (name : String) {params : List DataType} (result : Option DataType)
    (address : UInt32) (flags : SymbolFlags)
    (hf : flags.bits.toNat < 32 ∧ flags.contains .member = false) (h : params.length ≤ 4095) :
    Symbol.WellFormed { functionSymbol name params result address with flags } :=
  wellFormed_of_stores flags rfl hf (toNat_ofNat_le h) (.func _ address)

theorem wellFormed_class (name : String) (index : UInt32) {members : List Member}
    (h : members.length ≤ 4095) (hm : ∀ m ∈ members, m.count.toNat ≤ 4095) :
    ∀ s ∈ classSymbols name index members, s.WellFormed := by
  intro s hs
  rw [classSymbols] at hs
  rcases List.mem_cons.1 hs with rfl | hs
  · exact wellFormed_of_stores .none rfl (by decide) (toNat_ofNat_le h) (.cls _ 0)
  · obtain ⟨⟨m, offset⟩, hmem, rfl⟩ := List.mem_map.1 hs
    have hf : SymbolFlags.member.bits.toNat < 32 ∧ SymbolFlags.member.contains .member = true := by
      decide
    refine ⟨⟨hm m (List.of_mem_zip hmem).1, hf.1⟩, fun _ => rfl, fun h => ?_⟩
    exact absurd (h.symm.trans hf.2) Bool.false_ne_true

/-! ## Well-formed drafts -/

namespace Draft

/-- Whether all symbols of a draft are well formed and numbered by their positions. -/
structure WellFormed (d : Draft) : Prop where
  symbols : ∀ s ∈ d.symbols, s.WellFormed
  index : ∀ i (h : i < d.symbols.size), d.symbols[i].index = UInt32.ofNat i

variable {d : Draft}

theorem wellFormed_empty : empty.WellFormed := ⟨nofun, nofun⟩

/-- What is emitted has no influence on the symbols. -/
theorem WellFormed.congr {d' : Draft} (h : d.WellFormed) (he : d'.symbols = d.symbols) :
    d'.WellFormed := by
  obtain ⟨symbols, code, literals⟩ := d'
  obtain rfl : symbols = d.symbols := he
  exact ⟨h.symbols, h.index⟩

/-- A symbol that is added gets its number and its name in upper case, which keep it well formed. -/
theorem WellFormed.add (h : d.WellFormed) {s : Symbol} (hs : s.WellFormed) :
    (d.add s).WellFormed := by
  refine ⟨fun t ht => ?_, fun i hi => ?_⟩
  · rcases Array.mem_push.1 ht with ht | rfl
    · exact h.symbols t ht
    · exact ⟨⟨hs.count_le, hs.flags_lt⟩, hs.member_none, hs.stores⟩
  · have hget : (d.add s).symbols[i] = if h : i < d.symbols.size then d.symbols[i] else
        { s with name := Text.upperName s.name, index := d.nextIndex } := Array.getElem_push hi
    rw [hget]
    -- the symbols before keep their numbers, and the new one gets the next
    split
    · next hlt => exact h.index i hlt
    · next hge =>
      have hsize : i < d.symbols.size + 1 := Array.size_push .. ▸ hi
      obtain rfl : i = d.symbols.size := by omega
      rfl

theorem WellFormed.addAll (h : d.WellFormed) {l : List Symbol} (hl : ∀ s ∈ l, s.WellFormed) :
    (d.addAll l).WellFormed := by
  induction l generalizing d with
  | nil => exact h
  | cons s l ih =>
    obtain ⟨hs, hl⟩ := List.forall_mem_cons.1 hl
    exact ih (h.add hs) hl

theorem WellFormed.addStringConst (h : d.WellFormed) (name text : String) :
    (d.addStringConst name text).WellFormed :=
  h.add (wellFormed_of_stores .const rfl (by decide) (by decide : (1 : UInt32).toNat ≤ 4095)
    (.strings [text]))

theorem WellFormed.addLiteral (h : d.WellFormed) (text : String) :
    (d.addLiteral text).WellFormed :=
  (h.addStringConst ("\u00FF" ++ toString (10000 + (d.literals + 1))) text).congr rfl

end Draft

/-! ## Bodies -/

namespace OpenBody

variable {o : OpenBody}

/-- Filling the jumps of a body changes its code only. -/
theorem symbols_finish : o.finish.draft.symbols = o.draft.symbols := by
  rw [finish]
  split
  · rfl
  · exact List.foldlRecOn o.fixups _ (motive := fun d : Draft => d.symbols = o.draft.symbols)
      rfl fun d hd f _ => hd

/-- An item of a body leaves the symbols as they are or appends a literal. -/
theorem wellFormed_step (h : o.draft.WellFormed) (item : BodyItem) :
    (o.step item).draft.WellFormed := by
  cases item with
  | pushText text => exact (h.addLiteral text).congr rfl
  | call symbol =>
    rw [step]
    split <;> exact h.congr rfl
  | finish => exact h.congr symbols_finish
  | emit | branch | newLabel | bind | jump | jumpIfZero | raw => exact h.congr rfl

theorem wellFormed_steps (h : o.draft.WellFormed) (items : List BodyItem) :
    (items.foldl step o).draft.WellFormed := by
  induction items generalizing o with
  | nil => exact h
  | cons item items ih => exact ih (wellFormed_step h item)

end OpenBody

namespace Draft

variable {d : Draft}

theorem WellFormed.addBody (h : d.WellFormed) (items : List BodyItem) :
    (d.addBody items).WellFormed :=
  OpenBody.wellFormed_steps (o := d.openBody) h items

end Draft

/-! ## Declarations -/

/-- The numbers of elements, members and parameters that a declaration asks for. -/
def Declaration.counts : Declaration → List Nat
  | .cls _ members => members.length :: members.map (·.count.toNat)
  | .var _ _ count => [count.toNat]
  | .intConst _ values => [values.length]
  | .floatConst _ values => [values.length]
  | .external _ params _ | .function _ params _ _ => [params.length]
  | .instanceVar .. | .stringConst .. | .stringLiteral .. | .proto .. | .inst .. => []

namespace Draft

variable {d : Draft}

/-- A declaration appends symbols that are well formed. -/
theorem WellFormed.declare (h : d.WellFormed) {decl : Declaration}
    (hc : ∀ n ∈ decl.counts, n ≤ 4095) : (d.declare decl).WellFormed := by
  cases decl with
  | cls name members =>
    obtain ⟨hlen, hmembers⟩ := List.forall_mem_cons.1 hc
    exact h.addAll (wellFormed_class name _ hlen fun m hm => hmembers _ (List.mem_map_of_mem hm))
  | var name type count =>
    exact h.add (wellFormed_variable name type (hc _ List.mem_cons_self))
  | instanceVar name cls =>
    exact h.add (wellFormed_of_stores .none rfl (by decide)
      (by decide : (1 : UInt32).toNat ≤ 4095) (.inst _ 0))
  | intConst name values =>
    have hlen : values.length ≤ 4095 := hc _ List.mem_cons_self
    have hstores := Stores.ints values
    rw [← toNat_ofNat_of_le hlen] at hstores
    exact h.add (wellFormed_of_stores .const rfl (by decide) (toNat_ofNat_le hlen) hstores)
  | floatConst name values =>
    have hlen : values.length ≤ 4095 := hc _ List.mem_cons_self
    have hstores := Stores.floats values
    rw [← toNat_ofNat_of_le hlen] at hstores
    exact h.add (wellFormed_of_stores .const rfl (by decide) (toNat_ofNat_le hlen) hstores)
  | stringConst name text => exact h.addStringConst name text
  | stringLiteral text => exact h.addLiteral text
  | external name params result =>
    have hf := wellFormed_function name result 0
      ((if result.isSome then SymbolFlags.const.union .returns else .const).union .external)
      (by cases result.isSome <;> decide) (hc _ List.mem_cons_self)
    exact (h.add hf).addAll (wellFormed_parameters name params)
  | function name params result body =>
    have hf := wellFormed_function name result d.here
      (if result.isSome then SymbolFlags.const.union .returns else .const)
      (by cases result.isSome <;> decide) (hc _ List.mem_cons_self)
    exact ((h.add hf).addAll (wellFormed_parameters name params)).addBody _
  | proto name parent body =>
    exact (h.add (wellFormed_of_stores .const rfl (by decide)
      (by decide : (0 : UInt32).toNat ≤ 4095) (.proto _ d.here))).addBody body
  | inst name parent body =>
    exact (h.add (wellFormed_of_stores .const rfl (by decide)
      (by decide : (0 : UInt32).toNat ≤ 4095) (.inst _ d.here))).addBody _

end Draft

theorem wellFormed_assemble {decls : List Declaration}
    (hc : ∀ decl ∈ decls, ∀ n ∈ decl.counts, n ≤ 4095) : (assemble decls).WellFormed := by
  have h (d : Draft) (hd : d.WellFormed) : (decls.foldl Draft.declare d).WellFormed := by
    induction decls generalizing d with
    | nil => exact hd
    | cons decl decls ih =>
      obtain ⟨hdecl, hrest⟩ := List.forall_mem_cons.1 hc
      exact ih hrest _ (hd.declare hdecl)
  exact h .empty Draft.wellFormed_empty

/-! ## Loading a draft -/

theorem length_flatMap_encode (l : List UInt32) :
    (l.flatMap LittleEndian.encode).length = 4 * l.length := by
  induction l with
  | nil => rfl
  | cons w l ih =>
    rw [List.flatMap_cons, List.length_append, ih, LittleEndian.length_encode, List.length_cons]
    omega

section

variable {enc : Text.Encoding} {d : Draft} (hd : d.WellFormed)
  (hlines : ∀ s ∈ d.symbols, ∀ t ∈ s.texts, 0x0A ∉ enc.encode t.toList)
  (hsymbols : d.symbols.size < UInt32.size) (hcode : d.code.size < UInt32.size)

include hd hlines hsymbols hcode

/-- The loader takes all bytes of a draft and reads its symbols and its code from them, if no line
ends in any of its texts. -/
theorem Draft.WellFormed.reads_rereads :
    Reads (Script.read enc) (d.bytes enc)
      (.ofParts version (d.symbols.toList.map (Symbol.reread enc)) d.code) := by
  have hcount : d.nextIndex.toNat = d.symbols.toList.length := by
    rw [nextIndex, UInt32.toNat_ofNat_of_lt' hsymbols, Array.length_toList]
  have hsort : (d.sortTable.flatMap LittleEndian.encode).length = 4 * d.nextIndex.toNat := by
    rw [length_flatMap_encode, sortTable, List.length_map, List.length_mergeSort, hcount]
  have hskip := Reader.reads_skip .sortTable (d.sortTable.flatMap LittleEndian.encode)
  rw [hsort] at hskip
  have htable : Reads (Symbol.readTable enc d.nextIndex.toNat 0)
      (d.symbols.toList.flatMap (symbolBytes enc)) (d.symbols.toList.map (Symbol.reread enc)) := by
    rw [hcount]
    refine Symbol.reads_table (fun s hs => hd.symbols s (Array.mem_toList_iff.1 hs))
      (fun s hs => hlines s (Array.mem_toList_iff.1 hs)) fun j hj => ?_
    rw [Array.getElem_toList, hd.index, UInt32.zero_add]
  have hsize : d.here.toNat = d.code.toList.length := by
    rw [here, UInt32.toNat_ofNat_of_lt' hcode, Array.length_toList]
  have hcode := Reader.reads_bytes .code d.code.toList
  rw [← hsize] at hcode
  rw [bytes]
  simp only [List.append_assoc]
  exact (Reader.reads_byte _ _).bind <| (Reader.reads_word _ _).bind <| hskip.bind <|
    htable.bind <| (Reader.reads_word _ _).bind <| hcode.bind_pure _

/-- So the bytes of a draft are loaded as a script with what becomes of its symbols. -/
theorem Draft.WellFormed.load_rereads : Script.load enc (d.bytes enc) =
    .ok (.ofParts version (d.symbols.toList.map (Symbol.reread enc)) d.code) := by
  have hread := hd.reads_rereads hlines hsymbols hcode []
  rw [List.append_nil] at hread
  exact Script.load_of_read hread

end

section

variable {enc : Text.Encoding} {d : Draft} (hd : d.WellFormed)
  (hp : ∀ s ∈ d.symbols, ∀ i ∈ s.parent, i < 0x80000000)
  (ht : ∀ s ∈ d.symbols, ∀ t ∈ s.texts, enc.Carries t)
  (hsymbols : d.symbols.size < UInt32.size) (hcode : d.code.size < UInt32.size)

include hd hp ht hsymbols hcode

/-- If the encoding carries all texts, the symbols are read as they are loaded. -/
theorem Draft.WellFormed.reads_bytes :
    Reads (Script.read enc) (d.bytes enc)
      (.ofParts version (d.symbols.toList.map Symbol.loaded) d.code) := by
  have hread := hd.reads_rereads (fun s hs t h => (ht s hs t h).notMem_encode) hsymbols hcode
  have hmap : d.symbols.toList.map (Symbol.reread enc) = d.symbols.toList.map Symbol.loaded :=
    List.map_congr_left fun s hs => Symbol.reread_eq_loaded (hp s (Array.mem_toList_iff.1 hs))
      (ht s (Array.mem_toList_iff.1 hs))
  rwa [hmap] at hread

/-- So the bytes of a draft are loaded as a script with its symbols and its code. -/
theorem Draft.WellFormed.load_bytes : Script.load enc (d.bytes enc) =
    .ok (.ofParts version (d.symbols.toList.map Symbol.loaded) d.code) := by
  have hread := hd.reads_bytes hp ht hsymbols hcode []
  rw [List.append_nil] at hread
  exact Script.load_of_read hread

end

/-- A symbol has the same name before it is written and after it is loaded. -/
theorem missingSlots_loaded (l : List Symbol) :
    Script.missingSlots (l.map Symbol.loaded) = Script.missingSlots l := by
  rw [Script.missingSlots, Script.missingSlots]
  simp only [List.any_map]
  rfl

/-- Take any declarations with at most 4095 elements, members and parameters each. What is assembled
from them, if the parents of its symbols are below half the range of indices, if the encoding
carries its texts and if its symbols and its code can be counted in a word, is loaded with the same
code and with its symbols in order: a variable that holds a function holds its address as a number,
and apart from that the symbols are equal. Behind them stand only generated instances, one for each
of the slots that no symbol has the name of. -/
theorem load_assemble {enc : Text.Encoding} {decls : List Declaration}
    (hc : ∀ decl ∈ decls, ∀ n ∈ decl.counts, n ≤ 4095)
    (hp : ∀ s ∈ (assemble decls).symbols, ∀ i ∈ s.parent, i < 0x80000000)
    (ht : ∀ s ∈ (assemble decls).symbols, ∀ t ∈ s.texts, enc.Carries t)
    (hsymbols : (assemble decls).symbols.size < UInt32.size)
    (hcode : (assemble decls).code.size < UInt32.size) :
    ∃ p slots, Script.load enc ((assemble decls).bytes enc) = .ok p ∧
      p.version = Draft.version ∧ p.code = (assemble decls).code ∧
      p.symbols.toList = (assemble decls).symbols.toList.map Symbol.loaded ++ slots ∧
      slots.map (·.name) = Script.slotNames.filter (fun name =>
        !(assemble decls).symbols.any fun s => Text.sameName s.name name) ∧
      ∀ s ∈ slots, s.type = .inst ∧ s.flags = .generated := by
  have hread := (wellFormed_assemble hc).reads_bytes hp ht hsymbols hcode []
  rw [List.append_nil] at hread
  refine ⟨_, _, Script.load_of_read hread, rfl, rfl, rfl, ?_, fun s hs => ?_⟩
  · rw [missingSlots_loaded, List.map_map]
    refine (List.zipIdx_map_fst 0 _).trans ?_
    simp only [Script.missingSlots, Array.any_toList]
  · obtain ⟨⟨name, i⟩, -, rfl⟩ := List.mem_map.1 hs
    exact ⟨rfl, rfl⟩

/-- The flags that fit do not mark a symbol as one that the loader adds. -/
theorem isGenerated_of_fits {s : Symbol} (h : s.Fits) : s.isGenerated = false := by
  rw [Symbol.isGenerated, SymbolFlags.contains, beq_eq_false_iff_ne]
  intro he
  have hle : (s.flags.bits &&& SymbolFlags.generated.bits).toNat ≤ s.flags.bits.toNat := by
    rw [UInt32.toNat_and]
    exact Nat.and_le_left
  rw [he] at hle
  exact absurd (Nat.lt_of_le_of_lt hle h.flags_lt) (by decide)

/-- Symbols and code that cannot be counted in a word are not what any bytes are loaded as, so the
bounds on what is assembled cannot be left out. -/
theorem Draft.WellFormed.lt_size_of_load {enc : Text.Encoding} {bytes : List UInt8} {p : Script}
    {d : Draft} (hd : d.WellFormed) (hload : Script.load enc bytes = .ok p)
    (hsymbols : d.symbols.toList.map Symbol.loaded <+: p.symbols.toList) (hcode : p.code = d.code) :
    d.symbols.size < UInt32.size ∧ d.code.size < UInt32.size := by
  refine ⟨?_, hcode ▸ Script.size_code_of_load hload⟩
  obtain ⟨version, symbols, code, rfl, hlt, -⟩ := Script.exists_parts_of_load hload
  refine Nat.lt_of_not_le fun hge => ?_
  have hnext : symbols.length < d.symbols.size := Nat.lt_of_lt_of_le hlt hge
  have hloaded : (Script.ofParts version symbols code).symbols.toList[symbols.length]? =
      some d.symbols[symbols.length].loaded := by
    obtain ⟨rest, hrest⟩ := hsymbols
    rw [← hrest, List.getElem?_append_left (by simpa using hnext), List.getElem?_map,
      Array.getElem?_toList, Array.getElem?_eq_getElem hnext]
    rfl
  -- behind the symbols that are read stand only those that the loader adds
  rw [Script.ofParts, List.getElem?_append_right (Nat.le_refl _), List.getElem?_map] at hloaded
  obtain ⟨⟨name, i⟩, -, hslot⟩ := Option.map_eq_some_iff.1 hloaded
  have hwell := hd.symbols _ (Array.getElem_mem hnext)
  have hread : d.symbols[symbols.length].loaded.isGenerated = false :=
    isGenerated_of_fits (s := d.symbols[symbols.length]) hwell.toFits
  rw [← hslot, Script.slotSymbol_isGenerated] at hread
  cases hread

/-- Two texts, a variable that holds a function, and a function with a parameter. -/
def greetings : List Declaration := [
  .stringConst "Greeting" "hi", .stringLiteral "ho", .var "Answer" .func 1,
  .function "Main" [.int] (some .int) [.pushInt 1, .finish]]

theorem load_assemble_greetings :
    ∃ p slots, Script.load .windows1252 ((assemble greetings).bytes .windows1252) = .ok p ∧
      p.version = Draft.version ∧ p.code = (assemble greetings).code ∧
      p.symbols.toList = (assemble greetings).symbols.toList.map Symbol.loaded ++ slots ∧
      slots.map (·.name) = Script.slotNames.filter (fun name =>
        !(assemble greetings).symbols.any fun s => Text.sameName s.name name) ∧
      ∀ s ∈ slots, s.type = .inst ∧ s.flags = .generated := by
  have hp : ∀ s ∈ (assemble greetings).symbols, s.parent.all (· < 0x80000000) = true := by
    decide +kernel
  refine load_assemble (by decide) (fun s hs i hi => ?_) (by decide +kernel) (by decide +kernel)
    (by decide +kernel)
  exact of_decide_eq_true ((Option.all_eq_true _ _).1 (hp s hs) i hi)

end ScriptMachine.Assembler
