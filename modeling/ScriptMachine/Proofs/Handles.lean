import ScriptMachine.Proofs.Binding
import ScriptMachine.Proofs.Operation
import ScriptMachine.Proofs.Slots

/-!
# Handles over time

A machine changes its registry in three ways only: an instance is allocated and a handle is issued
for it, an instance is freed, or an instance is changed in its place. So what a handle reads, at any
time, is decided by what was allocated and freed since it was issued.

* `Machine.Evolves.exists_history` – the registry of a machine arises from an empty one.
* `Machine.Stale` – whether a handle is stale for all that is done through it.
* `Machine.reads_of_handle` – what a handle reads.
* `Machine.not_stale_forever` – a handle that reads another instance than its own.
-/

namespace ScriptMachine

open Registry (Event History Sound removals)

namespace Machine

variable {σ : Type} {m m' : Machine σ} {limit : Nat} {es : List Event}

/-! ## What happens to the registry of a machine -/

/-- A write changes an instance in its place. -/
theorem history_of_stored {n n' : Memory} {v : CellValue} (h : n.Stored v n')
    (H : History limit es n.instances) : History limit es n'.instances := by
  cases h with
  | dropped | global => exact H
  | field hx => exact H.put hx _

/-- A step of the memory allocates an instance, frees one, or makes no event. -/
theorem history_of_step {p : Script} {n n' : Memory} (h : n.Step p n')
    (H : History limit es n.instances) :
    (∃ s tag x, n.alloc p s tag = .ok (x, n') ∧ History limit (.issued x :: es) n'.instances) ∨
      (∃ x, n.free x = .ok n' ∧ History limit (.removed x :: es) n'.instances) ∨
        History limit es n'.instances := by
  cases h with
  | same | setSlot => exact .inr (.inr H)
  | store h => exact .inr (.inr (history_of_stored h H))
  | @alloc _ s tag x _ _ h =>
    obtain ⟨cls, instances, -, hi, rfl⟩ := Memory.alloc_eq_ok h
    exact .inl ⟨s, tag, x, h, H.insert hi⟩
  | @free x _ h =>
    obtain ⟨instances, hi, rfl⟩ := Memory.free_eq_ok h
    exact .inr (.inl ⟨x, h, H.remove hi⟩)
  | markInitialized h =>
    obtain ⟨y, hy, rfl⟩ := Memory.markInitialized_eq_ok h
    exact .inr (.inr (H.put hy _))

/-- In any case the registry goes on from what it was. -/
theorem exists_history_of_step {p : Script} {n n' : Memory} (h : n.Step p n')
    (H : History limit es n.instances) : ∃ later, History limit (later ++ es) n'.instances := by
  rcases history_of_step h H with ⟨-, -, x, -, H⟩ | ⟨x, -, H⟩ | H
  · exact ⟨[.issued x], H⟩
  · exact ⟨[.removed x], H⟩
  · exact ⟨[], H⟩

/-- So does that of a machine, whatever happens to it. -/
theorem Evolves.exists_history (h : Evolves m m') (H : History limit es m.memory.instances) :
    ∃ later, History limit (later ++ es) m'.memory.instances := by
  refine h.keeps_memory (Q := fun n => ∃ later, History limit (later ++ es) n.instances) ?_
    ⟨[], H⟩
  rintro n n' hs ⟨later, H⟩
  obtain ⟨more, H⟩ := exists_history_of_step hs H
  exact ⟨more ++ later, by rwa [List.append_assoc]⟩

/-- With a limit that numbers of 32 bits reach, the registry of a machine keeps account of its
slots. -/
theorem Evolves.sound {p : Script} {c : Config} (h : Evolves (new p c) m)
    (hlimit : c.maxInstances ≤ 2 ^ 32) :
    Sound m.memory.instances ∧ m.memory.instances.limit ≤ 2 ^ 32 := by
  have hempty : History c.maxInstances [] (new p c : Machine σ).memory.instances := .empty
  obtain ⟨later, H⟩ := h.exists_history hempty
  obtain ⟨hsound, hl⟩ := H.sound hlimit
  exact ⟨hsound, hl ▸ hlimit⟩

/-- The handle that allocating hands out is issued. -/
theorem history_of_alloc {key : SymbolKey} {tag : InstanceTag} {x : Handle}
    (h : alloc key tag m = (.ok x, m')) (H : History limit es m.memory.instances) :
    History limit (.issued x :: es) m'.memory.instances := by
  rcases alloc_eq h with ⟨s, y, memory, -, hm, hx, rfl⟩ | ⟨e, he, -⟩
  · obtain rfl := Except.ok.inj hx
    obtain ⟨cls, instances, -, hi, rfl⟩ := Memory.alloc_eq_ok hm
    exact H.insert hi
  · cases he

/-- Freeing an instance removes it. -/
theorem history_of_free {x : Handle} {u : Unit} (h : free x m = (.ok u, m'))
    (H : History limit es m.memory.instances) :
    History limit (.removed x :: es) m'.memory.instances := by
  rcases free_eq h with ⟨memory, hm, -, rfl⟩ | ⟨e, he, -⟩
  · obtain ⟨instances, hi, rfl⟩ := Memory.free_eq_ok hm
    exact H.remove hi
  · cases he

/-! ## What a handle reads -/

/-- Whether a handle is stale for all that host code and scripts do with instances: members, fields
and tags are looked up in vain, and nothing can be freed or marked. That a constant is not written
to is found out before. -/
structure Stale (m : Machine σ) (x : Handle) : Prop where
  member : ∀ s i, m.script.symbolByIndex? i = some s → s.isMember = true →
    m.memory.Refuses m.script m.config.flags s i x .staleInstance .staleInstance
  field : ∀ name, m.memory.memberStorage m.script x name = .error .staleInstance
  tag : ∀ t, m.memory.checkTag t x = .error .staleInstance
  free : m.memory.free x = .error .staleInstance
  mark : m.memory.markInitialized x = .error .staleInstance

/-- Nothing can be done through a handle that is not found. -/
theorem stale_of_get {x : Handle} (hx : m.memory.instances.get x = .error .staleInstance) :
    Stale m x where
  member s i hs hmember := Memory.refuses_of_locate hs (by
    rw [Memory.locate, if_pos hmember]
    simp only [hx])
  field name := by
    rw [Memory.memberStorage, Memory.memberPlace, hx]
    rfl
  tag t := by
    rw [Memory.checkTag, hx]
    rfl
  free := by
    rw [Memory.free, Registry.remove_of_get? (Registry.get_eq_error.1 hx)]
    rfl
  mark := by
    rw [Memory.markInitialized, hx]
    rfl

/-- Take a registry for at most 2 ^ 32 instances, whatever was put into it and freed, and any handle
it issued on the way. The handle reads its instance until an instance is freed from its slot, and is
stale from then on, until that happened 2 ^ 32 times. The registry of a machine is such a one:
allocating issues a handle, freeing removes an instance, and nothing else that a machine does is
either. A stale handle is stale for all that is done through it. -/
theorem reads_of_handle (hlimit : limit ≤ 2 ^ 32) :
    (∀ (later earlier : List Event) (x : Handle) (r : Registry),
      History limit (later ++ .issued x :: earlier) r →
      (removals x.slot later = 0 → ∃ y, r.get x = .ok y) ∧
        (0 < removals x.slot later → removals x.slot later < 2 ^ 32 →
          r.get x = .error .staleInstance) ∧
        ∀ y, r.get x = .ok y ↔
          2 ^ 32 ∣ removals x.slot later ∧
            r.slots[x.slot.toNat]?.bind (·.content) = some y) ∧
    (∀ (m m' : Machine σ) (es : List Event), History limit es m.memory.instances →
      (∀ key tag x, alloc key tag m = (.ok x, m') →
        History limit (.issued x :: es) m'.memory.instances) ∧
      (∀ x, free x m = (.ok (), m') → History limit (.removed x :: es) m'.memory.instances) ∧
      (Change m m' →
        (∃ s tag x, m.memory.alloc m.script s tag = .ok (x, m'.memory) ∧
          History limit (.issued x :: es) m'.memory.instances) ∨
        (∃ x, m.memory.free x = .ok m'.memory ∧
          History limit (.removed x :: es) m'.memory.instances) ∨
        History limit es m'.memory.instances) ∧
      (Evolves m m' → ∃ later, History limit (later ++ es) m'.memory.instances)) ∧
    (∀ (m : Machine σ) (x : Handle),
      m.memory.instances.get x = .error .staleInstance → Stale m x) ∧
    ∀ (p : Script) (c : Config), c.maxInstances = limit →
      History limit [] (new p c : Machine σ).memory.instances := by
  refine ⟨?_, ?_, ?_, ?_⟩
  · intro later earlier x r H
    exact H.get hlimit
  · intro m m' es H
    exact ⟨fun _ _ _ h => history_of_alloc h H, fun _ h => history_of_free h H,
      fun h => history_of_step h.memory H, fun h => h.exists_history H⟩
  · exact fun m x hx => stale_of_get hx
  · rintro p c rfl
    exact .empty

/-- A machine with room for one instance, of a class with a constant member. -/
def roomForOne : Machine Unit :=
  .new (.ofParts 50
    [.blank "C" 0 .cls none,
      { Symbol.blank "C.V" 1 .int (some 0) with flags := SymbolFlags.const.union .member },
      { Symbol.blank "THING" 2 .inst (some 0) with flags := .const }] #[])
    { Config.default with maxInstances := 1 }

/-- An instance is allocated, freed, and allocated again: the first handle is stale, and the second
one reads its instance. -/
theorem reads_of_handle_twice :
    ∃ x y m₁ m₂ m₃, alloc (.index 2) .unknown roomForOne = (.ok x, m₁) ∧
      free x m₁ = (.ok (), m₂) ∧ alloc (.index 2) .unknown m₂ = (.ok y, m₃) ∧
      Stale m₃ x ∧
      ∃ z, m₃.memory.instances.get y = .ok z := by
  obtain ⟨x, y, m₁, m₂, m₃, hx, hfree, hy⟩ : ∃ x y m₁ m₂ m₃,
      alloc (.index 2) .unknown roomForOne = (.ok x, m₁) ∧ free x m₁ = (.ok (), m₂) ∧
        alloc (.index 2) .unknown m₂ = (.ok y, m₃) :=
    ⟨_, _, _, _, _, rfl, rfl, rfl⟩
  have hlimit : 1 ≤ 2 ^ 32 := by decide
  obtain ⟨hreads, hevents, hstale, hnew⟩ := reads_of_handle (σ := Unit) hlimit
  have H := (hevents _ _ _ (hnew _ _ rfl)).1 _ _ _ hx
  have H := (hevents _ _ _ H).2.1 _ hfree
  have H := (hevents _ _ _ H).1 _ _ _ hy
  refine ⟨x, y, m₁, m₂, m₃, hx, hfree, hy, ?_, ?_⟩
  · exact hstale _ _ ((hreads [_, _] [] x _ H).2.1 (by simp) (by simp))
  · exact (hreads [] _ y _ H).1 rfl

/-- A slot is used so often that the generation of the first handle comes round: the handle, which
was freed, reads an instance of another class. And a handle that has just been freed is not found
stale where a constant is written to through it. -/
theorem not_stale_forever :
    (∃ (later : List Event) (r : Registry),
      History 1 (later ++ [.issued (Registry.reusedHandle 0)]) r ∧
        .removed (Registry.reusedHandle 0) ∈ later ∧
        r.get (Registry.reusedHandle 0) = .ok ⟨7, .allocated, #[]⟩) ∧
    ∃ x m₁ m₂, alloc (.index 2) .unknown roomForOne = (.ok x, m₁) ∧ free x m₁ = (.ok (), m₂) ∧
      m₂.memory.write m₂.script m₂.config.flags ⟨1, 0, some x⟩ ⟨.int, 1⟩ =
        .error (.illegalConstAccess "C.V") := by
  refine ⟨?_, _, _, _, rfl, rfl, rfl⟩
  obtain ⟨later, H, hremoved⟩ :=
    Registry.exists_history_reused ⟨0, .allocated, #[]⟩ (2 ^ 32 - 1)
  have hlast := Registry.history_reused_succ H ⟨7, .allocated, #[]⟩
  exact ⟨_ :: _ :: later, _, hlast, .tail _ (.tail _ (hremoved (by decide))), rfl⟩

end Machine

end ScriptMachine
