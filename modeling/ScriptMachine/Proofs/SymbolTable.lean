import ScriptMachine.Proofs.Reading

/-!
# Symbol tables of loaded scripts

The loader numbers the symbols it reads by their positions, so that a symbol of a loaded script is
found again at its own index. The slots it adds behind them are variables of the engine, and no
functions.

* `Reader.Ensures` – what a reader guarantees of what it reads.
* `Script.exists_parts_of_load` – what a script is loaded from.
* `Script.index_of_getElem?` – the index of a symbol is its position.
* `Script.Indexed` – whether the functions of a script are found at their own indices.
* `Script.Numbered` – whether what is found at an index has that index.
* `Script.indexed_of_load`, `Script.numbered_of_load` – both hold of every loaded script.
* `Script.data_eq_none_of_load` – instances have no initial value.
* `Script.size_code_of_load` – how long the code can be.
-/

namespace ScriptMachine

namespace Reader

variable {α β : Type}

/-- Whether everything a reader may read has a property. -/
def Ensures (x : Reader α) (P : α → Prop) : Prop := ∀ bs a rest, x bs = .ok (a, rest) → P a

theorem Ensures.pure {a : α} {P : α → Prop} (h : P a) : Ensures (pure a : Reader α) P := by
  intro bs b rest hb
  obtain ⟨rfl, -⟩ := Prod.mk.inj (Except.ok.inj hb)
  exact h

/-- What is read before the last part does not matter for a guarantee of the last part. -/
theorem Ensures.bind {x : Reader α} {f : α → Reader β} {P : α → Prop} {Q : β → Prop}
    (hx : Ensures x P) (hf : ∀ a, P a → Ensures (f a) Q) : Ensures (x >>= f) Q := by
  intro bs b rest h
  obtain ⟨a, mid, ha, hb⟩ := bind_eq_ok h
  exact hf a (hx _ _ _ ha) _ _ _ hb

/-- Two guarantees are one. -/
theorem Ensures.and {x : Reader α} {P Q : α → Prop} (hP : Ensures x P) (hQ : Ensures x Q) :
    Ensures x fun a => P a ∧ Q a :=
  fun bs a rest h => ⟨hP bs a rest h, hQ bs a rest h⟩

theorem Ensures.trivial (x : Reader α) : Ensures x fun _ => True := fun _ _ _ _ => True.intro

/-- A part without a guarantee of its own is read before one that has one. -/
theorem Ensures.after {x : Reader α} {f : α → Reader β} {Q : β → Prop}
    (hf : ∀ a, Ensures (f a) Q) : Ensures (x >>= f) Q :=
  .bind (.trivial x) fun a _ => hf a

theorem ensures_bytes (n : Nat) (what : Field) : Ensures (bytes n what) (·.length = n) := by
  intro bs l rest h
  rw [bytes] at h
  split at h
  · next hn =>
    obtain ⟨rfl, -⟩ := Prod.mk.inj (Except.ok.inj h)
    exact List.length_take_of_le hn
  · cases h

end Reader

open Reader (Ensures)

namespace Symbol

/-- What is guaranteed of a symbol follows from the index it is read for, from its flags, which are
those that a script stores, and from the payload that its type, flags and count ask for. -/
theorem ensures_read {enc : Text.Encoding} {i : UInt32} {P : Symbol → Prop}
    {Q : DataType → SymbolFlags → UInt32 → Payload → Prop}
    (hpayload : ∀ type flags count,
      Ensures (readOwnPayload enc type flags count) (Q type flags count))
    (h : ∀ s : Symbol, s.index = i → (∃ bits, s.flags = ⟨bits &&& SymbolFlags.stored⟩) →
      (∃ a, Q s.type s.flags s.count a ∧ s.data = a.data) → P s) :
    Ensures (read enc i) P := by
  rw [read_eq]
  refine .after fun name => ?_
  rw [readNamed]
  refine .after fun extra => .after fun properties => ?_
  cases DataType.ofCode? ((properties >>> 12) &&& 0xF) with
  | none => exact fun bs s rest h => nomatch h
  | some type =>
    exact .after fun source => .bind (hpayload type _ _) fun payload hp =>
      .after fun parent => .pure (h _ rfl ⟨_, rfl⟩ ⟨payload, hp, rfl⟩)

/-- A symbol is read with the index it is read for. -/
theorem read_index (enc : Text.Encoding) (i : UInt32) : Ensures (read enc i) (·.index = i) :=
  ensures_read (fun _ _ _ => .trivial _) fun _ hi _ _ => hi

/-- The symbols of a table are numbered by their positions. -/
theorem readTable_index (enc : Text.Encoding) (n : Nat) :
    ∀ i, Ensures (readTable enc n i) fun l =>
      l.length = n ∧ ∀ j (h : j < l.length), l[j].index = i + UInt32.ofNat j := by
  induction n with
  | zero => exact fun i => .pure ⟨rfl, fun j h => absurd h (Nat.not_lt_zero j)⟩
  | succ n ih =>
    intro i
    refine .bind (read_index enc i) fun s hs => .bind (ih (i + 1)) fun l hl => .pure ?_
    refine ⟨congrArg (· + 1) hl.1, fun j h => ?_⟩
    cases j with
    | zero =>
      rw [List.getElem_cons_zero, hs]
      exact (UInt32.add_zero i).symm
    | succ j =>
      rw [List.getElem_cons_succ, hl.2 j (Nat.lt_of_succ_lt_succ h), UInt32.ofNat_add,
        UInt32.add_assoc, UInt32.add_comm 1]
      rfl

/-- What holds of each symbol that is read holds of the symbols of a table. -/
theorem readTable_forall {enc : Text.Encoding} {P : Symbol → Prop}
    (h : ∀ i, Ensures (read enc i) P) (n : Nat) :
    ∀ i, Ensures (readTable enc n i) fun l => ∀ s ∈ l, P s := by
  induction n with
  | zero => exact fun i => .pure fun s hs => absurd hs List.not_mem_nil
  | succ n ih =>
    exact fun i => .bind (h i) fun s hs => .bind (ih (i + 1)) fun l hl =>
      .pure (List.forall_mem_cons.2 ⟨hs, hl⟩)

/-- An instance stores no initial value. -/
theorem readOwnPayload_inst (enc : Text.Encoding) (flags : SymbolFlags) (count : UInt32) :
    Ensures (readOwnPayload enc .inst flags count) (·.data = .none) := by
  rw [readOwnPayload]
  split
  · exact .pure rfl
  · exact .after fun address => .pure rfl

theorem read_data (enc : Text.Encoding) (i : UInt32) :
    Ensures (read enc i) fun s => s.type = .inst → s.data = .none := by
  refine ensures_read (Q := fun type _ _ a => type = .inst → a.data = .none) ?_ ?_
  · rintro type flags count bs a rest h rfl
    exact readOwnPayload_inst enc flags count bs a rest h
  · rintro s - - ⟨a, ha, hd⟩ ht
    rw [hd, ha ht]

/-- Neither does a member, whatever its type. -/
theorem readOwnPayload_of_member (enc : Text.Encoding) (type : DataType) {flags : SymbolFlags}
    (count : UInt32) (hf : flags.contains .member = true) :
    Ensures (readOwnPayload enc type flags count) (·.data = .none) := by
  rw [readOwnPayload, if_pos hf]
  exact .pure rfl

theorem read_data_of_isMember (enc : Text.Encoding) (i : UInt32) :
    Ensures (read enc i) fun s => s.isMember = true → s.data = .none := by
  refine ensures_read (Q := fun _ flags _ a => flags.contains .member = true → a.data = .none)
    ?_ ?_
  · intro type flags count bs a rest h hf
    exact readOwnPayload_of_member enc type count hf bs a rest h
  · rintro s - - ⟨a, ha, hd⟩ hm
    rw [hd, ha hm]

/-- The bits of a symbol that is read are those that a script stores, so it is not marked as one
that the loader adds. -/
theorem read_isGenerated (enc : Text.Encoding) (i : UInt32) :
    Ensures (read enc i) (·.isGenerated = false) := by
  refine ensures_read (fun _ _ _ => .trivial _) ?_
  rintro s - ⟨bits, hf⟩ -
  have hnone : SymbolFlags.stored &&& SymbolFlags.generated.bits = 0 := by decide
  rw [isGenerated, hf, SymbolFlags.contains, UInt32.and_assoc, hnone, UInt32.and_zero]
  rfl

end Symbol

namespace Script

/-- Whether the functions of a script, those of the host and those with a body, are found at their
own indices. -/
def Indexed (p : Script) : Prop :=
  ∀ key f, p.find key = .ok f → f.isExternal = true ∨ f.isCallable = true →
    p.symbolByIndex? f.index = some f

variable {p : Script}

/-- A symbol that is found is in the table. -/
theorem mem_of_find {key : SymbolKey} {f : Symbol} (h : p.find key = .ok f) :
    f ∈ p.symbols := by
  have hr : p.resolve? key = some f := by
    rw [find] at h
    split at h
    · next hs => rw [hs, Except.ok.inj h]
    · cases h
  cases key with
  | name s => exact Array.mem_of_find?_eq_some hr
  | index i => exact Array.mem_of_getElem? hr
  | address a =>
    rcases Option.or_eq_some_iff.1 hr with hr | ⟨-, hr⟩
    · exact Array.mem_of_find?_eq_some hr
    · exact Array.mem_of_find?_eq_some hr

/-- A symbol has the name that it is found under, up to case. -/
theorem foldName_of_symbolByName? {name : String} {s : Symbol}
    (h : p.symbolByName? name = some s) : Text.foldName s.name = Text.foldName name := by
  rw [symbolByName?] at h
  have hsame := Array.find?_some h
  exact Text.sameName_iff.1 hsame

/-- A slot that the loader adds is marked as one. -/
theorem slotSymbol_isGenerated (name : String) (i : Nat) :
    (slotSymbol name i).isGenerated = true :=
  show SymbolFlags.generated.contains .generated = true by decide

/-- A slot that the loader adds is no function. -/
theorem slotSymbol_not_function (name : String) (i : Nat) :
    (slotSymbol name i).isExternal = false ∧ (slotSymbol name i).isCallable = false := by
  have hf : SymbolFlags.generated.contains .external = false := by decide
  exact ⟨hf, rfl⟩

/-- A slot that the loader adds has no body. -/
theorem slotSymbol_isInstanceDefinition (name : String) (i : Nat) :
    (slotSymbol name i).isInstanceDefinition = false := by
  have hc : (slotSymbol name i).isConst = false :=
    show SymbolFlags.generated.contains .const = false by decide
  rw [Symbol.isInstanceDefinition, hc, Bool.and_false, Bool.false_and]

/-- The parts a script is loaded from: a table that is numbered by positions, with what holds of
each symbol that is read, and code that is no longer than addresses reach. -/
theorem exists_parts_of_load_of {enc : Text.Encoding} {bytes : List UInt8} {P : Symbol → Prop}
    (hread : ∀ i, Ensures (Symbol.read enc i) P) (h : load enc bytes = .ok p) :
    ∃ version symbols code, p = ofParts version symbols code ∧ symbols.length < UInt32.size ∧
      (∀ j (h : j < symbols.length), symbols[j].index = UInt32.ofNat j) ∧
      (∀ s ∈ symbols, P s) ∧ code.size < UInt32.size := by
  have hr : Ensures (read enc) fun p =>
      ∃ version symbols code, p = ofParts version symbols code ∧ symbols.length < UInt32.size ∧
        (∀ j (h : j < symbols.length), symbols[j].index = UInt32.ofNat j) ∧
        (∀ s ∈ symbols, P s) ∧ code.size < UInt32.size := by
    rw [read]
    refine .after fun version => .after fun count => .after fun _ => ?_
    refine .bind ((Symbol.readTable_index enc count.toNat 0).and
      (Symbol.readTable_forall hread _ _)) fun symbols hs => ?_
    refine .after fun codeSize => .bind (Reader.ensures_bytes _ _) fun code hcode => .pure ?_
    obtain ⟨⟨hlength, hindex⟩, hP⟩ := hs
    refine ⟨version, symbols, _, rfl, hlength ▸ count.toNat_lt, fun j hj => ?_, hP, ?_⟩
    · rw [hindex j hj, UInt32.zero_add]
    · rw [List.size_toArray, hcode]
      exact codeSize.toNat_lt
  obtain ⟨rest, hp⟩ := load_eq_ok h
  exact hr _ _ _ hp

/-- None of the symbols that are read is marked as one that the loader adds. -/
theorem exists_parts_of_load {enc : Text.Encoding} {bytes : List UInt8}
    (h : load enc bytes = .ok p) :
    ∃ version symbols code, p = ofParts version symbols code ∧ symbols.length < UInt32.size ∧
      (∀ j (h : j < symbols.length), symbols[j].index = UInt32.ofNat j) ∧
      (∀ s ∈ symbols, s.isGenerated = false) ∧ code.size < UInt32.size :=
  exists_parts_of_load_of (Symbol.read_isGenerated enc) h

/-! ## Where symbols are found -/

/-- The index of a symbol is its position, also that of a slot that the loader adds. -/
theorem index_of_getElem? {enc : Text.Encoding} {bytes : List UInt8} (h : load enc bytes = .ok p)
    {j : Nat} {s : Symbol} (hs : p.symbols[j]? = some s) : s.index = UInt32.ofNat j := by
  obtain ⟨version, symbols, code, rfl, -, hi, -⟩ := exists_parts_of_load h
  rw [ofParts, List.getElem?_toArray] at hs
  rcases Nat.lt_or_ge j symbols.length with hlt | hge
  · rw [List.getElem?_append_left hlt, List.getElem?_eq_getElem hlt, Option.some.injEq] at hs
    rw [← hs, hi _ hlt]
  · rw [List.getElem?_append_right hge, List.getElem?_map, Option.map_eq_some_iff] at hs
    obtain ⟨⟨name, k⟩, hk, rfl⟩ := hs
    -- the slots are numbered from the end of the table on
    obtain ⟨hk', hk⟩ := List.getElem?_eq_some_iff.1 hk
    rw [List.getElem_zipIdx, Nat.zero_add] at hk
    obtain ⟨-, rfl⟩ := Prod.mk.inj hk
    show UInt32.ofNat (symbols.length + (j - symbols.length)) = UInt32.ofNat j
    rw [Nat.add_sub_cancel' hge]

/-- Whether what is found at an index has that index. -/
def Numbered (p : Script) : Prop := ∀ i s, p.symbolByIndex? i = some s → s.index = i

/-- What is found at an index of a loaded script has that index. -/
theorem numbered_of_load {enc : Text.Encoding} {bytes : List UInt8}
    (h : load enc bytes = .ok p) : p.Numbered := fun _ _ hs =>
  (index_of_getElem? h hs).trans UInt32.ofNat_toNat

/-- No more symbols are read than there are indices; what lies behind them are slots. -/
theorem lt_size_or_slot {enc : Text.Encoding} {bytes : List UInt8} (h : load enc bytes = .ok p)
    {j : Nat} {s : Symbol} (hs : p.symbols[j]? = some s) :
    (j < UInt32.size ∧ s.isGenerated = false) ∨ ∃ name i, s = slotSymbol name i := by
  obtain ⟨version, symbols, code, rfl, hl, -, hg, -⟩ := exists_parts_of_load h
  rw [ofParts, List.getElem?_toArray] at hs
  rcases Nat.lt_or_ge j symbols.length with hlt | hge
  · rw [List.getElem?_append_left hlt] at hs
    exact .inl ⟨Nat.lt_trans hlt hl, hg s (List.mem_of_getElem? hs)⟩
  · rw [List.getElem?_append_right hge, List.getElem?_map, Option.map_eq_some_iff] at hs
    obtain ⟨_, -, rfl⟩ := hs
    exact .inr ⟨_, _, rfl⟩

/-- A symbol that is read is found at its own index. -/
theorem symbolByIndex?_or_slot {enc : Text.Encoding} {bytes : List UInt8}
    (h : load enc bytes = .ok p) {s : Symbol} (hs : s ∈ p.symbols) :
    p.symbolByIndex? s.index = some s ∨ ∃ name i, s = slotSymbol name i := by
  obtain ⟨j, hj⟩ := Array.getElem?_of_mem hs
  refine (lt_size_or_slot h hj).imp_left fun ⟨hlt, _⟩ => ?_
  rw [symbolByIndex?, index_of_getElem? h hj, UInt32.toNat_ofNat_of_lt' hlt, hj]

/-- The functions of a loaded script are found at their own indices. -/
theorem indexed_of_load {enc : Text.Encoding} {bytes : List UInt8}
    (h : load enc bytes = .ok p) : p.Indexed := by
  intro key f hf hfun
  rcases symbolByIndex?_or_slot h (mem_of_find hf) with h | ⟨name, i, rfl⟩
  · exact h
  · simp only [slotSymbol_not_function, Bool.false_eq_true, or_self] at hfun

/-- So are its instances that have a body. -/
theorem symbolByIndex?_of_isInstanceDefinition {enc : Text.Encoding} {bytes : List UInt8}
    (h : load enc bytes = .ok p) {key : SymbolKey} {s : Symbol} (hs : p.find key = .ok s)
    (hinst : s.isInstanceDefinition = true) : p.symbolByIndex? s.index = some s := by
  rcases symbolByIndex?_or_slot h (mem_of_find hs) with h | ⟨name, i, rfl⟩
  · exact h
  · cases (slotSymbol_isInstanceDefinition name i).symm.trans hinst

/-- So is every symbol that the loader does not add. -/
theorem symbolByIndex?_of_not_generated {enc : Text.Encoding} {bytes : List UInt8}
    (h : load enc bytes = .ok p) {s : Symbol} (hs : s ∈ p.symbols)
    (hg : s.isGenerated = false) : p.symbolByIndex? s.index = some s := by
  rcases symbolByIndex?_or_slot h hs with h | ⟨name, i, rfl⟩
  · exact h
  · cases (slotSymbol_isGenerated name i).symm.trans hg

/-- The members of a class follow it in the table. -/
theorem getElem?_membersOf {cls : Symbol} {n : Nat} (hn : n < (p.membersOf cls).length) :
    (p.membersOf cls)[n]? = p.symbols[cls.index.toNat + 1 + n]? := by
  rw [membersOf] at hn ⊢
  split at hn
  · next ht =>
    rw [following, Array.length_toList, Array.size_extract] at hn
    rw [if_pos ht, following, Array.getElem?_toList, Array.getElem?_extract, if_pos hn]
  · cases hn

/-! ## What holds of all symbols -/

/-- What holds of each symbol that is read, and of the slots, holds of the symbols of a loaded
script. -/
theorem forall_mem_of_load {enc : Text.Encoding} {bytes : List UInt8} {P : Symbol → Prop}
    (hread : ∀ i, Ensures (Symbol.read enc i) P) (hslot : ∀ name i, P (slotSymbol name i))
    (h : load enc bytes = .ok p) : ∀ s ∈ p.symbols, P s := by
  obtain ⟨version, symbols, code, rfl, -, -, hs, -⟩ := exists_parts_of_load_of hread h
  intro s hmem
  rw [ofParts, List.mem_toArray, List.mem_append] at hmem
  rcases hmem with hmem | hmem
  · exact hs s hmem
  · obtain ⟨⟨name, i⟩, -, rfl⟩ := List.mem_map.1 hmem
    exact hslot name _

/-- Members of a loaded script have no initial value. -/
theorem data_eq_none_of_isMember {enc : Text.Encoding} {bytes : List UInt8}
    (h : load enc bytes = .ok p) {s : Symbol} (hs : s ∈ p.symbols) (hm : s.isMember = true) :
    s.data = .none :=
  forall_mem_of_load (Symbol.read_data_of_isMember enc) (fun _ _ _ => rfl) h s hs hm

/-- Instances of a loaded script have no initial value. -/
theorem data_eq_none_of_load {enc : Text.Encoding} {bytes : List UInt8}
    (h : load enc bytes = .ok p) {s : Symbol} (hs : s ∈ p.symbols) (ht : s.type = .inst) :
    s.data = .none :=
  forall_mem_of_load (Symbol.read_data enc) (fun _ _ _ => rfl) h s hs ht

/-- The code of a loaded script is no longer than its addresses reach. -/
theorem size_code_of_load {enc : Text.Encoding} {bytes : List UInt8}
    (h : load enc bytes = .ok p) : p.code.size < UInt32.size := by
  obtain ⟨version, symbols, code, rfl, -, -, -, hcode⟩ := exists_parts_of_load h
  exact hcode

end Script

end ScriptMachine
