import ScriptMachine.Proofs.Handles
import ScriptMachine.Proofs.Shape
import ScriptMachine.Schema.All

/-!
# Views of instances

A view gives the host access to the fields of an instance under a schema. The schema is checked
against the tag in the handle, which is copied freely, while the class and the fields are kept in a
slot, which is used again once the instance is freed. What links the two is the generation of the
slot: as long as it has not come round, a handle that reads anything reads the instance it was
issued for, and that was allocated for a class which the tag accepts. The slots themselves are named
by numbers of 32 bits, so there may be no more of them than that.

* `Registry.Houses` – whether the slot of a handle still holds an instance of its class.
* `Machine.EvolvesFreeing` – whatever happens to a machine, with the instances freed on the way.
* `Machine.Issues` – whether a machine hands out a handle.
* `Machine.viewed_of_issued` – what a view that is opened says of the instance.
* `Machine.not_viewed_beyond_slots` – a view of the wrong class, with more slots.
-/

namespace ScriptMachine

/-- A tag that accepts a class asks for it by its name, unless its schema is the open one. -/
theorem InstanceTag.schema_or_sameName {tag : InstanceTag} {cls : String}
    (h : tag.acceptsClass cls = true) :
    tag.schema = .any ∨ ∃ name, tag.className? = some name ∧ Text.sameName name cls = true := by
  rw [acceptsClass] at h
  split at h
  · next name hname => exact .inr ⟨name, hname, h⟩
  · next hnone =>
    cases tag
    case unknown => exact .inl rfl
    all_goals cases hnone

/-! ## The slot of a handle -/

namespace Registry

variable {r r' : Registry} {h y : Handle} {x z : Instance} {symbol : UInt32} {tag : InstanceTag}

/-- Freeing an instance changes the registry. -/
theorem remove_ne (r : Registry) (h : Handle) : r.remove h ≠ .ok r := by
  intro he
  rw [remove] at he
  split at he
  · next x hx =>
    have hslot := congrArg (·.slots[h.slot.toNat]?) (Except.ok.inj he)
    simp only [Array.getElem?_modify, if_pos, get?_eq_some.1 hx, Option.map_some,
      Option.some.injEq, Slot.mk.injEq, reduceCtorEq, and_false] at hslot
  · cases he

theorem live_remove_le (hi : r.remove h = .ok r') : r'.live ≤ r.live := by
  rw [remove] at hi
  split at hi
  · exact Except.ok.inj hi ▸ Nat.sub_le _ _
  · cases hi

theorem removals_map_eq_zero {slot : UInt32} {xs : List Handle} :
    removals slot (xs.map .removed) = 0 ↔ ∀ y ∈ xs, y.slot ≠ slot := by
  simp [removals, Event.frees]

theorem removals_map_le (slot : UInt32) (xs : List Handle) :
    removals slot (xs.map .removed) ≤ xs.length :=
  Nat.le_trans List.countP_le_length (Nat.le_of_eq (List.length_map _))

/-- Whether the slot of a handle was freed a number of times since the handle was issued for an
instance of a class. The instance is there, and of that class, as long as the number is zero. -/
def Houses (k : Nat) (h : Handle) (cls : UInt32) (r : Registry) : Prop :=
  ∃ content, r.slots[h.slot.toNat]? = some ⟨h.generation + UInt32.ofNat k, content⟩ ∧
    (k = 0 → ∃ x, content = some x ∧ x.cls = cls)

/-- A new instance is in the slot that its handle names. -/
theorem houses_of_insert (hr : Sound r) (hlimit : r.limit ≤ 2 ^ 32)
    (hi : r.insert symbol tag x = .ok (h, r')) : Houses 0 h x.cls r' := by
  obtain ⟨-, hc, -⟩ := insert_eq_ok hr hlimit hi
  refine ⟨some x, ?_, fun _ => ⟨x, rfl, rfl⟩⟩
  rw [hc.slots, if_pos rfl]
  simp

namespace Houses

variable {k : Nat} {cls : UInt32}

theorem freed (hh : Houses k h cls r) : Freed k h r := by
  obtain ⟨content, hslot, hk⟩ := hh
  refine ⟨content, hslot, fun h0 => ?_⟩
  obtain ⟨x, rfl, -⟩ := hk h0
  exact nofun

/-- An instance may be put into any slot that is empty or holds one of the same class. -/
theorem of_filled {n : Nat} {g : UInt32} (hh : Houses k h cls r)
    (hs : ∀ j, r'.slots[j]? = if j = n then some ⟨g, some x⟩ else r.slots[j]?)
    (hn : ∀ s, r.slots[n]? = some s →
      s.generation = g ∧ ∀ y, s.content = some y → x.cls = y.cls) : Houses k h cls r' := by
  obtain ⟨content, hslot, hk⟩ := hh
  rw [Houses, hs]
  by_cases hj : h.slot.toNat = n
  · obtain ⟨rfl, hcls⟩ := hn _ (hj ▸ hslot)
    rw [if_pos hj]
    refine ⟨some x, rfl, fun h0 => ?_⟩
    obtain ⟨y, hy, rfl⟩ := hk h0
    exact ⟨x, rfl, hcls y hy⟩
  · rw [if_neg hj]
    exact ⟨content, hslot, hk⟩

theorem insert (hh : Houses k h cls r) (hr : Sound r) (hlimit : r.limit ≤ 2 ^ 32)
    (hi : r.insert symbol tag x = .ok (y, r')) : Houses k h cls r' := by
  obtain ⟨hy, hc, -⟩ := insert_eq_ok hr hlimit hi
  refine hh.of_filled hc.slots fun s hslot => ?_
  rw [hslot] at hy
  rcases hy with hy | hy
  · cases hy
  · obtain rfl := Option.some.inj hy
    exact ⟨rfl, nofun⟩

theorem put (hh : Houses k h cls r) (hx : r.get? y = some x) (hz : z.cls = x.cls) :
    Houses k h cls (r.put y z) := by
  refine hh.of_filled (changed_put hx).slots fun s hslot => ?_
  rw [get?_eq_some.1 hx] at hslot
  obtain rfl := Option.some.inj hslot
  exact ⟨rfl, fun w hw => hz.trans (congrArg _ (Option.some.inj hw))⟩

/-- Freeing an instance frees its slot once more, and no other. -/
theorem remove (hh : Houses k h cls r) (hr : Sound r) (hi : r.remove y = .ok r') :
    Houses (k + if y.slot = h.slot then 1 else 0) h cls r' := by
  obtain ⟨⟨x, hx⟩, hc, -⟩ := remove_eq_ok hr hi
  obtain ⟨content, hslot, hk⟩ := hh.freed.of_none hc hx
  refine ⟨content, hslot, fun h0 => ?_⟩
  -- if the slot was not freed, it is one of those that stay as they are
  obtain ⟨rfl, hne⟩ : k = 0 ∧ y.slot ≠ h.slot := by
    split at h0
    · cases h0
    · next hne => exact ⟨h0, hne⟩
  obtain ⟨content', hslot', hk'⟩ := hh
  rw [hc.slots, if_neg fun he => hne (UInt32.toNat_inj.1 he.symm), hslot', if_neg hne] at hslot
  obtain ⟨-, rfl⟩ := Slot.mk.inj (Option.some.inj hslot)
  exact hk' rfl

/-- As long as the generation has not come round, a handle reads its own instance or nothing. -/
theorem get?_eq (hh : Houses k h cls r) (hk : k < 2 ^ 32) :
    (k = 0 ∧ ∃ x, r.get? h = some x ∧ x.cls = cls) ∨ k ≠ 0 ∧ r.get? h = none := by
  have hget := hh.freed.get?_eq
  rcases Nat.eq_zero_or_pos k with rfl | hpos
  · obtain ⟨content, hslot, hk⟩ := hh
    obtain ⟨x, rfl, hx⟩ := hk rfl
    rw [if_pos (Nat.dvd_zero _), hslot] at hget
    exact .inl ⟨rfl, x, hget, hx⟩
  · rw [if_neg (Nat.not_dvd_of_pos_of_lt hpos hk)] at hget
    exact .inr ⟨Nat.ne_of_gt hpos, hget⟩

end Houses

end Registry

open Registry (Sound Houses)

/-! ## What a memory does to it -/

namespace Memory

variable {p : Script} {n n' : Memory} {h : Handle} {k : Nat} {cls : UInt32}

/-- Freeing an instance changes the memory. -/
theorem free_ne (n : Memory) (x : Handle) : n.free x ≠ .ok n := by
  intro hf
  obtain ⟨instances, hi, hn⟩ := free_eq_ok hf
  obtain rfl : n.instances = instances := congrArg (·.instances) hn
  exact n.instances.remove_ne x hi

/-- Freeing an instance is no way to allocate one. -/
theorem free_ne_alloc {s : Symbol} {tag : InstanceTag} {y : Handle}
    (ha : n.alloc p s tag = .ok (y, n')) (x : Handle) : n.free x ≠ .ok n' := by
  intro hf
  obtain ⟨cls, instances, -, hi, hn⟩ := alloc_eq_ok ha
  obtain ⟨freed, hr, rfl⟩ := free_eq_ok hf
  obtain rfl : freed = instances := congrArg (·.instances) hn
  -- one more instance is live than before, which freeing cannot bring about
  have hlive := (Registry.live_insert hi).1
  have hle := Registry.live_remove_le hr
  omega

/-- No step but one that frees an instance empties a slot or changes the class of what it holds. -/
theorem Step.houses (hs : n.Step p n') (hn : Sound n.instances)
    (hlimit : n.instances.limit ≤ 2 ^ 32) (hf : ∀ x, n.free x ≠ .ok n')
    (hh : Houses k h cls n.instances) : Houses k h cls n'.instances := by
  cases hs with
  | same | setSlot => exact hh
  | store hs =>
    cases hs with
    | dropped | global => exact hh
    | field hx => exact hh.put hx rfl
  | alloc _ ha =>
    obtain ⟨cls, instances, -, hi, rfl⟩ := alloc_eq_ok ha
    exact hh.insert hn hlimit hi
  | free h => exact absurd h (hf _)
  | markInitialized hm =>
    obtain ⟨y, hy, rfl⟩ := markInitialized_eq_ok hm
    exact hh.put hy rfl

/-- The class of a new instance is one that the tag accepts. -/
theorem acceptsClass_of_classFor {s c : Symbol} {tag : InstanceTag}
    (hc : classFor p s tag = .ok c) : tag.acceptsClass c.name = true := by
  rw [classFor] at hc
  split at hc
  · split at hc
    · cases hc
    · split at hc
      · next ht => exact Except.ok.inj hc ▸ ht
      · cases hc
  · cases hc

/-- A view is opened for a live instance, under its tag or under the one that fits all. -/
theorem checkTag_eq_ok {tag : InstanceTag} {u : Unit} :
    n.checkTag tag h = .ok u ↔
      (∃ x, n.instances.get? h = some x) ∧ (tag = .unknown ∨ h.tag = tag) := by
  constructor
  · intro hc
    obtain ⟨x, hx, hc⟩ := Except.bind_eq_ok.1 hc
    refine ⟨⟨x, Registry.get_eq_ok.1 hx⟩, ?_⟩
    split at hc
    · assumption
    · cases hc
  · rintro ⟨⟨x, hx⟩, ht⟩
    refine Except.bind_eq_ok.2 ⟨x, Registry.get_eq_ok.2 hx, ?_⟩
    rw [if_pos ht]
    rfl

end Memory

/-! ## What happens to a machine -/

namespace Machine

variable {σ : Type} {a a' b b' m : Machine σ} {xs : List Handle} {key : SymbolKey}
  {tag : InstanceTag} {h x : Handle} {enc : Text.Encoding} {bytes : List UInt8} {p : Script}
  {c : Config}

/-- Whatever happens to a machine, with the handles that instances are freed through, the latest
first. -/
inductive EvolvesFreeing : List Handle → Machine σ → Machine σ → Prop where
  | refl (a : Machine σ) : EvolvesFreeing [] a a
  | other {xs : List Handle} {a b c : Machine σ} (h : EvolvesFreeing xs a b) (hc : Change b c)
      (hf : ∀ x, b.memory.free x ≠ .ok c.memory) : EvolvesFreeing xs a c
  | free {xs : List Handle} {a b c : Machine σ} {x : Handle} (h : EvolvesFreeing xs a b)
      (hc : Change b c) (hf : b.memory.free x = .ok c.memory) : EvolvesFreeing (x :: xs) a c

namespace EvolvesFreeing

/-- Whatever else happens to a machine, the instances that are freed meanwhile can be listed. -/
theorem exists_of_evolves (h : EvolvesFreeing xs a b) (hb : Evolves b b') :
    ∃ ys, EvolvesFreeing (ys ++ xs) a b' := by
  induction hb with
  | refl => exact ⟨[], h⟩
  | @tail b b' _ hc ih =>
    obtain ⟨ys, ih⟩ := ih
    by_cases hf : ∃ x, b.memory.free x = .ok b'.memory
    · obtain ⟨x, hf⟩ := hf
      exact ⟨x :: ys, ih.free hc hf⟩
    · exact ⟨ys, ih.other hc fun x hx => hf ⟨x, hx⟩⟩

/-- An instance that the host frees is one more. -/
theorem of_free (h : EvolvesFreeing xs a b) (hf : Machine.free x b = (.ok (), b')) :
    EvolvesFreeing (x :: xs) a b' := by
  rcases free_eq hf with ⟨memory, hm, -, rfl⟩ | ⟨e, he, -⟩
  · have hfreed : EvolvesFreeing (x :: xs) a (b.released x memory) := h.free (.edit (.free hm)) hm
    exact hfreed.other (.edit (.report _ rfl)) fun y => Memory.free_ne _ y
  · cases he

/-- An instance that the host allocates is none. -/
theorem of_alloc (h : EvolvesFreeing xs a b) (ha : Machine.alloc key tag b = (.ok x, b')) :
    EvolvesFreeing xs a b' := by
  rcases alloc_eq ha with ⟨s, y, memory, hs, hm, -, rfl⟩ | ⟨e, he, -⟩
  · have hnext : EvolvesFreeing xs a { b with memory } :=
      h.other (.edit (.alloc hs hm)) fun z => Memory.free_ne_alloc hm z
    exact hnext.other (.edit (.report _ rfl)) fun y => Memory.free_ne _ y
  · cases he

theorem evolves (h : EvolvesFreeing xs a b) : Evolves a b := by
  induction h with
  | refl => exact .refl
  | other _ hc _ ih | free _ hc _ ih => exact ih.tail hc

/-- How often the slot of a handle was freed is how often an instance was freed through a handle for
this slot. -/
theorem houses {cls : UInt32} {y : Handle} (h : EvolvesFreeing xs a b)
    (hlimit : c.maxInstances ≤ 2 ^ 32) (ha : Evolves (new p c) a)
    (hy : Houses 0 y cls a.memory.instances) :
    Houses (Registry.removals y.slot (xs.map .removed)) y cls b.memory.instances := by
  induction h with
  | refl => exact hy
  | other hb hc hf ih =>
    obtain ⟨hsound, hl⟩ := Evolves.sound (ha.trans hb.evolves) hlimit
    exact hc.memory.houses hsound hl hf (ih ha hy)
  | free hb hc hf ih =>
    obtain ⟨hsound, -⟩ := Evolves.sound (ha.trans hb.evolves) hlimit
    obtain ⟨instances, hi, hm⟩ := Memory.free_eq_ok hf
    rw [List.map_cons, Registry.removals_removed, hm]
    exact (ih ha hy).remove hsound hi

end EvolvesFreeing

/-- Whether a machine hands out a handle for a symbol under a tag: an instance is allocated, or it
is created, which is to run its body as well. The second machine is the one with the new instance,
before its body is run. -/
inductive Issues (key : SymbolKey) (tag : InstanceTag) (h : Handle) :
    Machine σ → Machine σ → Prop where
  | alloc {a a' : Machine σ} (ha : Machine.alloc key tag a = (.ok h, a')) : Issues key tag h a a'
  | create {n steps : Nat} {w w' : World σ}
      (hc : RunM.create (.nested n steps) key tag w = some (.ok h, w')) :
      Issues key tag h w.machine (Machine.alloc key tag w.machine).2

/-- An instance that is created is allocated first, and whatever its body does comes later. -/
theorem alloc_of_create {n steps : Nat} {w w' : World σ}
    (hc : RunM.create (.nested n steps) key tag w = some (.ok h, w')) :
    ∃ m, alloc key tag w.machine = (.ok h, m) ∧ Evolves m w'.machine := by
  generalize hr : (Except.ok h : Except Error Handle) = r at hc
  rcases RunM.create_eq_some hc with hu | ⟨hu, ha⟩ | ⟨hu, ha, hi⟩
  · cases hr
  · cases hr
  · next x m r =>
    cases r with
    | error e => cases hr
    | ok =>
      obtain rfl := Except.ok.inj hr
      have hb := Budget.nested_keeps_evolves (σ := σ) n steps
      exact ⟨m, ha, stable_evolves.governs.initialized ⟨hb.callback.heeds, hb.body⟩
        (RunM.restorable_any _ _) hi⟩

theorem Issues.alloc_eq (hi : Issues key tag h a a') : Machine.alloc key tag a = (.ok h, a') := by
  cases hi with
  | alloc ha => exact ha
  | create hc =>
    obtain ⟨m, ha, -⟩ := alloc_of_create hc
    rw [ha]

theorem Issues.evolves (hi : Issues key tag h a a') : Evolves a a' := by
  have : Absorbs (Evolves (σ := σ)) := stable_evolves.governs.toAbsorbs
  exact keeps_alloc key tag a _ a' hi.alloc_eq

/-- What is known of a handle that is issued: the symbol that it names leads to a class which its
tag accepts, and the instance that it reads is of this class. -/
theorem exists_class_of_alloc (hload : Script.load enc bytes = .ok p) (ha : Evolves (new p c) a)
    (hlimit : c.maxInstances ≤ 2 ^ 32) (halloc : alloc key tag a = (.ok h, a')) :
    ∃ s cls, p.find key = .ok s ∧ p.symbolByIndex? h.symbol = some s ∧ p.classOf? s = some cls ∧
      p.symbolByIndex? cls.index = some cls ∧ h.tag = tag ∧ tag.acceptsClass cls.name = true ∧
      Houses 0 h cls.index a'.memory.instances := by
  have hscript : a.script = p := ha.script_eq
  rcases alloc_eq halloc with ⟨s, x, memory, hs, hm, hx, rfl⟩ | ⟨e, he, -⟩
  · obtain rfl := Except.ok.inj hx
    obtain ⟨cls, instances, hcls, hi, rfl⟩ := Memory.alloc_eq_ok hm
    rw [hscript] at hs hcls
    obtain ⟨hinst, hclass⟩ := Memory.classFor_eq_ok hcls
    obtain ⟨hsymbol, htag⟩ := Registry.handle_of_insert hi
    have hne : s.type ≠ .cls := by
      rw [(Symbol.type_of_isInstanceDefinition hinst).1]
      exact nofun
    have hfound := (Script.symbolByIndex?_of_classWithin (Script.numbered_of_load hload) hclass).2
    refine ⟨s, cls, hs, ?_, hclass, hfound hne, htag, Memory.acceptsClass_of_classFor hcls, ?_⟩
    · rw [hsymbol]
      exact Script.symbolByIndex?_of_isInstanceDefinition hload hs hinst
    · obtain ⟨hsound, hl⟩ := ha.sound hlimit
      exact Registry.houses_of_insert hsound hl hi
  · cases he

/-- Take any moment of any run on a loaded script at which a machine for at most 2 ^ 32 instances
hands out a handle, and any later one before 2 ^ 32 instances were freed. The handle names the
symbol and the tag it was issued for; it reads an instance until one is freed from its slot and
nothing from then on, and what it reads is of the class that the chain of parents of the symbol
leads to. So a view of the handle, whether to read or to write, is only opened while the instance is
live, and then under the open schema, or under the schema of the tag the instance was allocated
under, and this tag asks for the class by its name. -/
theorem viewed_of_issued (hload : Script.load enc bytes = .ok p)
    (hlimit : c.maxInstances ≤ 2 ^ 32) (ha : Evolves (new p c) a) (hi : Issues key tag h a a') :
    ∃ s cls, p.find key = .ok s ∧ p.symbolByIndex? h.symbol = some s ∧ p.classOf? s = some cls ∧
      p.symbolByIndex? cls.index = some cls ∧ h.tag = tag ∧
      (∀ m, Evolves a' m → ∃ xs, EvolvesFreeing xs a' m) ∧
      ∀ m xs, EvolvesFreeing xs a' m → xs.length < 2 ^ 32 →
        ((∃ x, m.memory.instances.get? h = some x) ↔ ∀ y ∈ xs, y.slot ≠ h.slot) ∧
        (∀ x, m.memory.instances.get? h = some x → x.cls = cls.index) ∧
        ∀ t : InstanceTag, ((Query.openView t.schema.tag h).answer m).1 = .ok () →
          (∃ x, m.memory.instances.get? h = some x) ∧
            (t.schema = .any ∨ t = tag ∧
              ∃ name, t.className? = some name ∧ Text.sameName name cls.name = true) := by
  obtain ⟨s, cls, hs, hsymbol, hclass, hfound, rfl, haccepts, hhouses⟩ :=
    exists_class_of_alloc hload ha hlimit hi.alloc_eq
  refine ⟨s, cls, hs, hsymbol, hclass, hfound, rfl, fun m hm => ?_, fun m xs hm hxs => ?_⟩
  · obtain ⟨ys, hys⟩ := (EvolvesFreeing.refl a').exists_of_evolves hm
    exact ⟨_, hys⟩
  -- the generation of the slot has not come round
  have hk := Nat.lt_of_le_of_lt (Registry.removals_map_le h.slot xs) hxs
  have hget := (hm.houses hlimit (ha.trans hi.evolves) hhouses).get?_eq hk
  refine ⟨?_, fun x hx => ?_, fun t ht => ?_⟩
  · rw [← Registry.removals_map_eq_zero]
    rcases hget with ⟨h0, x, hx, -⟩ | ⟨h0, hnone⟩
    · exact ⟨fun _ => h0, fun _ => ⟨x, hx⟩⟩
    · simp [hnone, h0]
  · rcases hget with ⟨-, y, hy, hcls⟩ | ⟨-, hnone⟩
    · rwa [← Option.some.inj (hy.symm.trans hx)]
    · cases hnone.symm.trans hx
  · rw [InstanceTag.tag_schema] at ht
    obtain ⟨hlive, ht⟩ := Memory.checkTag_eq_ok.1 ht
    refine ⟨hlive, ?_⟩
    rcases ht with rfl | rfl
    · exact .inl rfl
    · exact (InstanceTag.schema_or_sameName haccepts).imp_right fun hname => ⟨rfl, hname⟩

/-- A script with an item and something that is none. -/
def stock : Script :=
  .ofParts 50
    [{ Symbol.blank "C_ITEM" 0 .cls none with count := 0 },
      { Symbol.blank "" 1 .inst (some 0) with flags := .const },
      { Symbol.blank "C_NPC" 2 .cls none with count := 0 },
      { Symbol.blank "" 3 .inst (some 2) with flags := .const }] #[60]

/-- The script as it is compiled. -/
def stockBytes : List UInt8 :=
  50 :: [4, 0, 0, 0, 0, 1].flatMap LittleEndian.encode ++ [67, 95, 73, 84, 69, 77, 10] ++
    [0, 0x4000, 0, 0, 0, 0, 0, 0, 0xFFFFFFFF, 0, 0, 0x17001, 0, 0, 0, 0, 0, 0, 0, 1].flatMap
      LittleEndian.encode ++ [67, 95, 78, 80, 67, 10] ++
    [0, 0x4000, 0, 0, 0, 0, 0, 0, 0xFFFFFFFF, 0, 0, 0x17001, 0, 0, 0, 0, 0, 0, 2, 1].flatMap
      LittleEndian.encode ++ [60]

set_option maxRecDepth 2000 in
theorem load_stockBytes : Script.load .windows1252 stockBytes = .ok stock := rfl

/-- The item is viewed as one, and no longer once it is freed. -/
theorem viewed_of_issued_of_item :
    ∃ x m₁ m₂, alloc (.index 1) .item (new stock .default : Machine Unit) = (.ok x, m₁) ∧
      free x m₁ = (.ok (), m₂) ∧ ((Query.openView .item x).answer m₁).1 = .ok () ∧
      (∃ y, m₁.memory.instances.get? x = some y ∧ y.cls = 0) ∧
      ∀ t : InstanceTag, ((Query.openView t.schema.tag x).answer m₂).1 ≠ .ok () := by
  obtain ⟨x, m₁, m₂, hx, hfree, hview⟩ : ∃ x m₁ m₂,
      alloc (.index 1) .item (new stock .default : Machine Unit) = (.ok x, m₁) ∧
        free x m₁ = (.ok (), m₂) ∧ ((Query.openView .item x).answer m₁).1 = .ok () :=
    ⟨_, _, _, rfl, rfl, rfl⟩
  have hlimit : Config.default.maxInstances ≤ 2 ^ 32 := by decide
  obtain ⟨s, cls, hs, -, hclass, -, -, -, hlater⟩ :=
    viewed_of_issued load_stockBytes hlimit .refl (.alloc hx)
  refine ⟨x, m₁, m₂, hx, hfree, hview, ?_, fun t ht => ?_⟩
  · obtain ⟨-, hcls, hviews⟩ := hlater m₁ [] (.refl m₁) (by decide)
    obtain ⟨y, hy⟩ := (hviews .item hview).1
    refine ⟨y, hy, (hcls y hy).trans ?_⟩
    cases hs
    cases hclass
    rfl
  · have hfreed : EvolvesFreeing [x] m₁ m₂ := (EvolvesFreeing.refl m₁).of_free hfree
    have hone : [x].length < 2 ^ 32 := Nat.one_lt_two_pow (by decide)
    obtain ⟨hlive, -, hviews⟩ := hlater m₂ [x] hfreed hone
    exact hlive.1 (hviews t ht).1 x (.head _) rfl

end Machine

/-! ## More slots than can be told apart -/

namespace Registry

/-- Whether a registry, with room for one instance more than there are numbers of 32 bits, holds a
number of instances, none of which was freed. -/
structure Filled (n : Nat) (r : Registry) : Prop where
  limit : r.limit = 2 ^ 32 + 1
  free : r.free = []
  live : r.live = n
  size : r.slots.size = n
  generation : ∀ s, r.slots[0]? = some s → s.generation = 0

/-- There is room for one instance more. The last one goes to the slot of the first. -/
theorem Filled.exists_insert {r : Registry} {n : Nat} (hr : Filled n r) (hn : n ≤ 2 ^ 32)
    (symbol : UInt32) (tag : InstanceTag) (x : Instance) :
    ∃ h r', r.insert symbol tag x = .ok (h, r') ∧ Filled (n + 1) r' ∧
      (n = 2 ^ 32 → r'.slots[0]? = some ⟨0, some x⟩) := by
  have hlive : r.live < r.limit := by
    rw [hr.live, hr.limit]
    omega
  have hclaim : r.claim = (UInt32.ofNat n, { r with slots := r.slots.push ⟨0, none⟩ }) := by
    rw [claim]
    split
    · next hfree => cases hr.free.symm.trans hfree
    · rw [hr.size]
  have hfirst : ∀ s, (r.slots.push ⟨0, none⟩)[0]? = some s → s.generation = 0 := by
    intro s hs
    rw [Array.getElem?_push] at hs
    split at hs
    · exact Option.some.inj hs ▸ rfl
    · exact hr.generation s hs
  refine ⟨_, _, insert_iff.2 ⟨hlive, rfl, rfl⟩, ⟨?_, ?_, ?_, ?_, fun s hs => ?_⟩, fun hlast => ?_⟩
  · rw [hclaim]
    exact hr.limit
  · rw [hclaim]
    exact hr.free
  · rw [hclaim]
    exact congrArg (· + 1) hr.live
  · rw [hclaim, fill, Array.size_modify, Array.size_push, hr.size]
  · rw [hclaim, getElem?_fill] at hs
    split at hs
    · obtain ⟨s', hs', rfl⟩ := Option.map_eq_some_iff.1 hs
      exact hfirst s' hs'
    · exact hfirst s hs
  · obtain ⟨s, hs⟩ : ∃ s, (r.slots.push ⟨0, none⟩)[0]? = some s :=
      ⟨_, Array.getElem?_eq_getElem (by rw [Array.size_push]; omega)⟩
    -- after 2 ^ 32 slots the numbers that name them start again from zero
    have hzero : 0 = (UInt32.ofNat n).toNat := by
      rw [hlast]
      rfl
    rw [hclaim, getElem?_fill, if_pos hzero, hs, Option.map_some, hfirst s hs]

end Registry

namespace Machine

/-- One more instance is allocated, which is no item. -/
theorem exists_alloc_of_filled {m : Machine Unit} {n : Nat} (hm : m.script = stock)
    (hfilled : Registry.Filled n m.memory.instances) (hn : n ≤ 2 ^ 32) :
    ∃ y m', alloc (.index 3) .unknown m = (.ok y, m') ∧ m'.script = stock ∧
      Registry.Filled (n + 1) m'.memory.instances ∧
      (n = 2 ^ 32 → ∃ x, m'.memory.instances.slots[0]? = some ⟨0, some x⟩ ∧ x.cls = 2) := by
  obtain ⟨s, cls, hs, hcls, hindex⟩ : ∃ s cls, stock.find (.index 3) = .ok s ∧
      Memory.classFor stock s .unknown = .ok cls ∧ cls.index = 2 :=
    ⟨_, _, rfl, rfl, rfl⟩
  obtain ⟨y, instances, hi, hnext, hlast⟩ :=
    hfilled.exists_insert hn s.index .unknown (Memory.freshInstance stock cls)
  have halloc : m.memory.alloc stock s .unknown =
      .ok (y, Memory.bind { m.memory with instances } s.index (some y)) := by
    rw [Memory.alloc, Except.bind_of_ok hcls, Except.bind_of_ok hi]
    rfl
  have ha : alloc (.index 3) .unknown m = (.ok y, Machine.report
      { m with memory := Memory.bind { m.memory with instances } s.index (some y) }
      (.allocated s.name .unknown y.slot)) := by
    rw [alloc, MachineM.get_bind, MachineM.lift_bind, hm, hs]
    dsimp only
    rw [MachineM.lift_bind, halloc]
    rfl
  exact ⟨y, _, ha, hm, hnext, fun h => ⟨_, hlast h, hindex⟩⟩

/-- There can be any number of them. -/
theorem exists_filled {m : Machine Unit} {n : Nat} (hm : m.script = stock)
    (hfilled : Registry.Filled n m.memory.instances) (k : Nat) (hk : n + k ≤ 2 ^ 32) :
    ∃ m', EvolvesFreeing [] m m' ∧ m'.script = stock ∧
      Registry.Filled (n + k) m'.memory.instances := by
  induction k with
  | zero => exact ⟨m, .refl m, hm, hfilled⟩
  | succ k ih =>
    obtain ⟨m', hev, hm', hfilled'⟩ := ih (by omega)
    obtain ⟨y, m'', halloc, hm'', hfilled'', -⟩ := exists_alloc_of_filled hm' hfilled' (by omega)
    exact ⟨m'', hev.of_alloc halloc, hm'', hfilled''⟩

/-- With room for one instance more than there are numbers of 32 bits, the last one is found in the
slot of the first. A view of an item is opened on an instance of another class, and nothing was
freed. -/
theorem not_viewed_beyond_slots :
    Script.load .windows1252 stockBytes = .ok stock ∧ ∃ x a m,
      alloc (.index 1) .item
        (new stock { Config.default with maxInstances := 2 ^ 32 + 1 } : Machine Unit) =
          (.ok x, a) ∧
      EvolvesFreeing [] a m ∧ ((Query.openView .item x).answer m).1 = .ok () ∧
      ∃ y cls, m.memory.instances.get? x = some y ∧ stock.symbolByIndex? y.cls = some cls ∧
        InstanceTag.item.acceptsClass cls.name = false := by
  obtain ⟨a, ha, hscript, hfilled⟩ : ∃ a,
      alloc (.index 1) .item
        (new stock { Config.default with maxInstances := 2 ^ 32 + 1 } : Machine Unit) =
          (.ok ⟨0, 0, 1, .item⟩, a) ∧
        a.script = stock ∧ Registry.Filled 1 a.memory.instances := by
    refine ⟨_, rfl, rfl, rfl, rfl, rfl, rfl, fun s hs => ?_⟩
    cases hs
    rfl
  obtain ⟨m', hev, hm', hfilled'⟩ := exists_filled hscript hfilled (2 ^ 32 - 1) (by decide)
  obtain ⟨y, m, halloc, hm, -, hlast⟩ := exists_alloc_of_filled hm' hfilled' (by decide)
  obtain ⟨x, hx, hcls⟩ := hlast rfl
  have hget : m.memory.instances.get? ⟨0, 0, 1, .item⟩ = some x := Registry.get?_eq_some.2 hx
  refine ⟨load_stockBytes, _, a, m, ha, hev.of_alloc halloc, ?_, x, ?_⟩
  · exact Memory.checkTag_eq_ok.2 ⟨⟨x, hget⟩, .inr rfl⟩
  · rw [hcls]
    exact ⟨_, hget, rfl, rfl⟩

end Machine

end ScriptMachine
