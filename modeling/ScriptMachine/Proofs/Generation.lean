import Mathlib.Algebra.Group.Nat.Defs
import Mathlib.Data.List.Nodup
import Mathlib.Data.List.Perm.Subperm
import ScriptMachine.Instance.Registry

/-!
# Generations of slots

A registry keeps account of its slots, so that a handle is issued for a slot that holds no instance,
in the generation the slot is in. Each time the slot is freed the generation goes up by one, which
is how the handle is told from those that are issued later. Generations are numbers of 32 bits:
after 2 ^ 32 of them the first comes round.

* `Registry.Sound` – what a registry keeps account of.
* `Registry.History` – the registries that arise from an empty one, with what happened to them.
* `Registry.Freed` – how often the slot of a handle was freed since the handle was issued.
* `Registry.History.get` – what a handle reads, given everything that happened since.
-/

namespace ScriptMachine

namespace Registry

variable {r r' : Registry} {h : Handle} {x : Instance}

/-! ## What the operations do to the slots -/

/-- A handle refers to what its slot holds, if the slot is still in the generation of the handle. -/
theorem get?_eq_some : r.get? h = some x ↔
    r.slots[h.slot.toNat]? = some ⟨h.generation, some x⟩ := by
  rw [get?]
  split
  · next s hs =>
    rcases s with ⟨g, content⟩
    simp only [hs, Option.some.injEq, Slot.mk.injEq]
    split
    · next hg => simp [hg]
    · next hg => simp [hg]
  · next hs => simp [hs]

/-- Looking a handle up succeeds for the handles of live instances. -/
theorem get_eq_ok : r.get h = .ok x ↔ r.get? h = some x := by
  rw [get]
  split
  · next y hy => simp [hy]
  · next hy => simp [hy]

/-! ## Which instances there are -/

/-- The slots of a registry once one of them holds another instance. -/
theorem getElem?_fill (r : Registry) (slot : UInt32) (x : Instance) (n : Nat) :
    (r.fill slot x).slots[n]? =
      if n = slot.toNat then r.slots[n]?.map fun s => ⟨s.generation, some x⟩ else r.slots[n]? := by
  rw [fill, Array.getElem?_modify]
  by_cases hn : n = slot.toNat
  · rw [if_pos hn.symm, if_pos hn, hn]
  · rw [if_neg (Ne.symm hn), if_neg hn]

/-- What a registry holds after a slot is filled is the new instance, or was held before. -/
theorem eq_or_get?_of_fill {slot : UInt32} {y z : Instance} {k : Handle}
    (hz : (r.fill slot y).get? k = some z) : z = y ∨ r.get? k = some z := by
  rw [get?_eq_some, getElem?_fill] at hz
  split at hz
  · obtain ⟨s, -, hs⟩ := Option.map_eq_some_iff.1 hz
    exact .inl (Option.some.inj (Slot.mk.inj hs).2).symm
  · exact .inr (get?_eq_some.2 hz)

/-- What a registry holds after an instance is replaced is the new instance, or was held before. -/
theorem eq_or_get?_of_put {y z : Instance} {k : Handle} (hz : (r.put h y).get? k = some z) :
    z = y ∨ r.get? k = some z :=
  eq_or_get?_of_fill hz

/-- A slot that is there once one is chosen was there before, or is new. -/
theorem slot_of_claim {n : Nat} {s : Slot} (hs : r.claim.2.slots[n]? = some s) :
    s = ⟨0, none⟩ ∨ r.slots[n]? = some s := by
  rw [claim] at hs
  split at hs
  · exact .inr hs
  · rw [Array.getElem?_push] at hs
    split at hs
    · exact .inl (Option.some.inj hs).symm
    · exact .inr hs

/-- A slot that is chosen holds nothing. -/
theorem get?_of_claim {z : Instance} {k : Handle} (hz : r.claim.2.get? k = some z) :
    r.get? k = some z := by
  rcases slot_of_claim (get?_eq_some.1 hz) with hs | hs
  · cases (Slot.mk.inj hs).2
  · exact get?_eq_some.2 hs

/-- An instance is put into a registry with room for it, into the slot that is chosen. -/
theorem insert_iff {symbol : UInt32} {tag : InstanceTag} :
    r.insert symbol tag x = .ok (h, r') ↔ r.live < r.limit ∧
      r.claim.2.handle r.claim.1 symbol tag = h ∧
      { r.claim.2.fill r.claim.1 x with live := r.claim.2.live + 1 } = r' := by
  rw [insert]
  by_cases hlive : r.limit ≤ r.live
  · simp [hlive, Nat.not_lt.2 hlive]
  · simp only [if_neg hlive, Except.ok.injEq, Prod.mk.injEq, Nat.not_le.1 hlive, true_and]

/-- What a registry holds after an instance is put into it is the instance, or was held before. -/
theorem eq_or_get?_of_insert {symbol : UInt32} {tag : InstanceTag} {z : Instance} {k : Handle}
    (hi : r.insert symbol tag x = .ok (h, r')) (hz : r'.get? k = some z) :
    z = x ∨ r.get? k = some z := by
  obtain ⟨-, -, rfl⟩ := insert_iff.1 hi
  exact (eq_or_get?_of_fill hz).imp_right get?_of_claim

/-- What a registry holds after an instance is freed was held before. -/
theorem get?_of_remove {z : Instance} {k : Handle} (hi : r.remove h = .ok r')
    (hz : r'.get? k = some z) : r.get? k = some z := by
  rw [remove] at hi
  split at hi
  · obtain rfl := Except.ok.inj hi
    rw [get?_eq_some, Array.getElem?_modify] at hz
    split at hz
    · obtain ⟨s, -, hs⟩ := Option.map_eq_some_iff.1 hz
      cases (Slot.mk.inj hs).2
    · exact get?_eq_some.2 hz
  · cases hi

/-- If an instance is put into one slot, the others without an instance are those of before. -/
theorem vacant_iff_of_filled {n : Nat} {g : UInt32}
    (hs : ∀ j, r'.slots[j]? = if j = n then some ⟨g, some x⟩ else r.slots[j]?) (i : UInt32) :
    (∃ g', r'.slots[i.toNat]? = some ⟨g', none⟩) ↔
      i.toNat ≠ n ∧ ∃ g', r.slots[i.toNat]? = some ⟨g', none⟩ := by
  rw [hs]
  by_cases hi : i.toNat = n
  · simp [hi]
  · simp [hi]

/-- Whether a registry is another one in which the slot of a handle has changed. -/
structure Changed (r : Registry) (h : Handle) (s : Slot) (r' : Registry) : Prop where
  slots : ∀ n, r'.slots[n]? = if n = h.slot.toNat then some s else r.slots[n]?
  limit : r'.limit = r.limit

namespace Changed

variable {g : UInt32} {s : Slot}

/-- A slot that is emptied joins those without an instance. -/
theorem vacant_iff_of_none (hc : Changed r h ⟨g, none⟩ r') (i : UInt32) :
    (∃ g', r'.slots[i.toNat]? = some ⟨g', none⟩) ↔
      i = h.slot ∨ ∃ g', r.slots[i.toNat]? = some ⟨g', none⟩ := by
  rw [hc.slots]
  by_cases hi : i = h.slot
  · simp [hi]
  · simp [hi, UInt32.toNat_inj]

end Changed

/-- Whether a registry keeps account of its slots: the free ones are those without an instance, each
is listed once, and there are no more than the limit allows. -/
structure Sound (r : Registry) : Prop where
  nodup : r.free.Nodup
  mem_free : ∀ i : UInt32, i ∈ r.free ↔ ∃ g, r.slots[i.toNat]? = some ⟨g, none⟩
  count : r.live + r.free.length = r.slots.size
  size_le : r.slots.size ≤ r.limit

theorem sound_empty (limit : Nat) : Sound (.empty limit) :=
  ⟨.nil, fun i => by simp [empty], rfl, Nat.zero_le _⟩

/-- Whether a slot without an instance, in a given generation, is chosen: it is free, or new, and
all others stay as they are. -/
structure Chosen (r : Registry) (slot g : UInt32) (r' : Registry) : Prop where
  before : r.slots[slot.toNat]? = none ∨ r.slots[slot.toNat]? = some ⟨g, none⟩
  after : r'.slots[slot.toNat]? = some ⟨g, none⟩
  others : ∀ n, n ≠ slot.toNat → r'.slots[n]? = r.slots[n]?
  mem_free : ∀ i, i ∈ r'.free ↔ i ≠ slot ∧ i ∈ r.free
  nodup : r'.free.Nodup
  count : r.live + 1 + r'.free.length = r'.slots.size
  size_le : r'.slots.size ≤ r.limit
  live : r'.live = r.live
  limit : r'.limit = r.limit

/-- There is a slot to choose in a registry with room for an instance, as long as numbers of 32 bits
can tell the slots apart. -/
theorem exists_chosen_claim (hr : Sound r) (hlive : r.live < r.limit) (hlimit : r.limit ≤ 2 ^ 32) :
    ∃ g, Chosen r r.claim.1 g r.claim.2 := by
  have hcount := hr.count
  rw [claim]
  split
  -- a free slot is used again, and is free no longer as none is listed twice
  · next slot rest hfree =>
    rw [hfree, List.length_cons] at hcount
    obtain ⟨g, hg⟩ := (hr.mem_free slot).1 (hfree ▸ List.mem_cons_self)
    have hnodup := hr.nodup
    rw [hfree, List.nodup_cons] at hnodup
    refine ⟨g, .inr hg, hg, fun _ _ => rfl, fun i => ?_, hnodup.2, ?_, hr.size_le, rfl, rfl⟩
    · rw [hfree, List.mem_cons]
      have hslot : i ∈ rest → i ≠ slot := fun hi he => hnodup.1 (he ▸ hi)
      grind
    · show r.live + 1 + rest.length = r.slots.size
      omega
  -- all slots are filled, so the limit leaves room for the number of one more
  · next hfree =>
    rw [hfree, List.length_nil] at hcount
    have hslot : (UInt32.ofNat r.slots.size).toNat = r.slots.size :=
      UInt32.toNat_ofNat_of_lt' (show r.slots.size < 2 ^ 32 by omega)
    refine ⟨0, .inl ?_, ?_, fun n hn => ?_, fun i => ?_, hr.nodup, ?_, ?_, rfl, rfl⟩
    · rw [hslot]
      exact Array.getElem?_eq_none (Nat.le_refl _)
    · rw [hslot]
      exact Array.getElem?_push_size
    · rw [hslot] at hn
      rw [Array.getElem?_push, if_neg hn]
    · simp [hfree]
    · rw [Array.size_push, hfree, List.length_nil]
      omega
    · rw [Array.size_push]
      omega

/-- With a limit that numbers of 32 bits reach, an instance is put into a slot without one, or into
a new one. The handle names this slot and the generation it is in. -/
theorem insert_eq_ok {symbol : UInt32} {tag : InstanceTag} (hr : Sound r)
    (hlimit : r.limit ≤ 2 ^ 32) (hi : r.insert symbol tag x = .ok (h, r')) :
    (r.slots[h.slot.toNat]? = none ∨ r.slots[h.slot.toNat]? = some ⟨h.generation, none⟩) ∧
      Changed r h ⟨h.generation, some x⟩ r' ∧ Sound r' := by
  obtain ⟨hlive, rfl, rfl⟩ := insert_iff.1 hi
  obtain ⟨g, hc⟩ := exists_chosen_claim hr hlive hlimit
  obtain rfl : (r.claim.2.handle r.claim.1 symbol tag).generation = g := by
    rw [handle, hc.after]
    rfl
  have hs : ∀ n, (r.claim.2.fill r.claim.1 x).slots[n]? =
      if n = r.claim.1.toNat then
        some ⟨(r.claim.2.handle r.claim.1 symbol tag).generation, some x⟩
      else r.slots[n]? := by
    intro n
    rw [getElem?_fill]
    by_cases hn : n = r.claim.1.toNat
    · rw [if_pos hn, if_pos hn, hn, hc.after]
      rfl
    · rw [if_neg hn, if_neg hn, hc.others n hn]
  refine ⟨hc.before, ⟨hs, hc.limit⟩, hc.nodup, fun i => ?_, ?_, ?_⟩
  · rw [vacant_iff_of_filled hs, ← hr.mem_free, Ne, UInt32.toNat_inj]
    exact hc.mem_free i
  · rw [fill, Array.size_modify, ← hc.count, hc.live]
  · rw [fill, Array.size_modify]
    exact hc.limit ▸ hc.size_le

/-- The slot of a live instance is not free. -/
theorem Sound.not_mem_free (hr : Sound r) (hx : r.get? h = some x) : h.slot ∉ r.free := by
  rw [hr.mem_free, get?_eq_some.1 hx]
  rintro ⟨g, hg⟩
  cases hg

/-- The slots without an instance leave room for one that has. -/
theorem Sound.length_free_lt (hr : Sound r) (hx : r.get? h = some x) :
    r.free.length < r.slots.size := by
  have hlt : ∀ i ∈ h.slot :: r.free, i.toNat < r.slots.size := by
    intro i hi
    have hsome : ∃ s, r.slots[i.toNat]? = some s := by
      rcases List.mem_cons.1 hi with rfl | hi
      · exact ⟨_, get?_eq_some.1 hx⟩
      · obtain ⟨g, hg⟩ := (hr.mem_free i).1 hi
        exact ⟨_, hg⟩
    obtain ⟨s, hs⟩ := hsome
    exact (Array.getElem?_eq_some_iff.1 hs).1
  have hnodup : ((h.slot :: r.free).map UInt32.toNat).Nodup :=
    (List.nodup_cons.2 ⟨hr.not_mem_free hx, hr.nodup⟩).map fun a b hab => UInt32.toNat_inj.1 hab
  have hsub : (h.slot :: r.free).map UInt32.toNat ⊆ List.range r.slots.size := by
    intro n hn
    obtain ⟨i, hi, rfl⟩ := List.mem_map.1 hn
    exact List.mem_range.2 (hlt i hi)
  have hle := (List.subperm_of_subset hnodup hsub).length_le
  rw [List.length_map, List.length_cons, List.length_range] at hle
  exact hle

/-- An instance that is freed leaves its slot in the next generation. -/
theorem remove_eq_ok (hr : Sound r) (hi : r.remove h = .ok r') :
    (∃ x, r.get? h = some x) ∧ Changed r h ⟨h.generation + 1, none⟩ r' ∧ Sound r' := by
  rw [remove] at hi
  split at hi
  · next x hx =>
    obtain rfl := Except.ok.inj hi
    have hslot := get?_eq_some.1 hx
    have hc : Changed r h ⟨h.generation + 1, none⟩
        { r with
          slots := r.slots.modify h.slot.toNat fun s => ⟨s.generation + 1, none⟩
          free := h.slot :: r.free
          live := r.live - 1 } := by
      refine ⟨fun n => ?_, rfl⟩
      rw [Array.getElem?_modify]
      by_cases hn : n = h.slot.toNat
      · rw [hn, if_pos rfl, if_pos rfl, hslot]
        rfl
      · rw [if_neg (Ne.symm hn), if_neg hn]
    have hlt := hr.length_free_lt hx
    have hcount := hr.count
    refine ⟨⟨x, hx⟩, hc, List.nodup_cons.2 ⟨hr.not_mem_free hx, hr.nodup⟩, fun i => ?_, ?_, ?_⟩
    · rw [hc.vacant_iff_of_none, ← hr.mem_free, List.mem_cons]
    · rw [Array.size_modify]
      show r.live - 1 + (r.free.length + 1) = r.slots.size
      omega
    · rw [Array.size_modify]
      exact hr.size_le
  · cases hi

/-- An instance that is replaced stays in its slot. -/
theorem changed_put {y : Instance} (hx : r.get? h = some x) :
    Changed r h ⟨h.generation, some y⟩ (r.put h y) := by
  refine ⟨fun n => ?_, rfl⟩
  rw [put, getElem?_fill]
  by_cases hn : n = h.slot.toNat
  · rw [hn, if_pos rfl, if_pos rfl, get?_eq_some.1 hx]
    rfl
  · rw [if_neg hn, if_neg hn]

theorem Sound.put {y : Instance} (hr : Sound r) (hx : r.get? h = some x) :
    Sound (r.put h y) := by
  refine ⟨hr.nodup, fun i => ?_, hr.count.trans Array.size_modify.symm, ?_⟩
  · rw [vacant_iff_of_filled (changed_put hx).slots, ← hr.mem_free, Ne, UInt32.toNat_inj]
    have hnot := hr.not_mem_free hx
    show i ∈ r.free ↔ i ≠ h.slot ∧ i ∈ r.free
    grind
  · rw [Registry.put, fill, Array.size_modify]
    exact hr.size_le

/-! ## What happens to a registry -/

/-- What happens to a registry: a handle is issued for a new instance, or the instance of one is
freed. -/
inductive Event where
  | issued (h : Handle)
  | removed (h : Handle)
  deriving DecidableEq

/-- Whether an event frees a slot. -/
def Event.frees (slot : UInt32) : Event → Bool
  | issued _ => false
  | removed h => h.slot == slot

/-- How often events free a slot. -/
def removals (slot : UInt32) (es : List Event) : Nat := es.countP (Event.frees slot)

@[simp] theorem removals_nil (slot : UInt32) : removals slot [] = 0 := rfl

@[simp] theorem removals_issued (slot : UInt32) (h : Handle) (es : List Event) :
    removals slot (.issued h :: es) = removals slot es := by
  simp [removals, Event.frees]

@[simp] theorem removals_removed (slot : UInt32) (h : Handle) (es : List Event) :
    removals slot (.removed h :: es) = removals slot es + if h.slot = slot then 1 else 0 := by
  simp [removals, List.countP_cons, Event.frees]

/-- The registries that arise from an empty one, with the events that led there, the latest first.
Instances that are changed in their place make no event. -/
inductive History (limit : Nat) : List Event → Registry → Prop where
  | empty : History limit [] (.empty limit)
  | insert {es : List Event} {r r' : Registry} {symbol : UInt32} {tag : InstanceTag} {x : Instance}
      {h : Handle} (H : History limit es r) (hi : r.insert symbol tag x = .ok (h, r')) :
      History limit (.issued h :: es) r'
  | remove {es : List Event} {r r' : Registry} {h : Handle} (H : History limit es r)
      (hi : r.remove h = .ok r') : History limit (.removed h :: es) r'
  | put {es : List Event} {r : Registry} {h : Handle} {x : Instance} (H : History limit es r)
      (hx : r.get? h = some x) (y : Instance) : History limit es (r.put h y)

/-- A registry that arises from an empty one keeps account of its slots. -/
theorem History.sound {limit : Nat} {es : List Event} (hlimit : limit ≤ 2 ^ 32)
    (H : History limit es r) : Sound r ∧ r.limit = limit := by
  induction H with
  | empty => exact ⟨sound_empty limit, rfl⟩
  | insert _ hi ih =>
    obtain ⟨hr, rfl⟩ := ih
    obtain ⟨-, hc, hs⟩ := insert_eq_ok hr hlimit hi
    exact ⟨hs, hc.limit⟩
  | remove _ hi ih =>
    obtain ⟨hr, rfl⟩ := ih
    obtain ⟨-, hc, hs⟩ := remove_eq_ok hr hi
    exact ⟨hs, hc.limit⟩
  | put _ hx y ih =>
    obtain ⟨hr, rfl⟩ := ih
    exact ⟨hr.put hx, rfl⟩

/-! ## A handle over time -/

/-- Whether the slot of a handle was freed a number of times since the handle was issued. -/
def Freed (k : Nat) (h : Handle) (r : Registry) : Prop :=
  ∃ content, r.slots[h.slot.toNat]? = some ⟨h.generation + UInt32.ofNat k, content⟩ ∧
    (k = 0 → content ≠ none)

namespace Freed

variable {k : Nat} {y : Handle}

/-- Filling a slot does not free any, whether it was empty or not. -/
theorem of_some (hf : Freed k h r) (hc : Changed r y ⟨y.generation, some x⟩ r')
    (hy : r.slots[y.slot.toNat]? = none ∨ ∃ c, r.slots[y.slot.toNat]? = some ⟨y.generation, c⟩) :
    Freed k h r' := by
  obtain ⟨content, hslot, hk⟩ := hf
  rw [Freed, hc.slots]
  by_cases hs : h.slot.toNat = y.slot.toNat
  · rw [if_pos hs]
    rw [hs] at hslot
    rcases hy with hy | ⟨c, hy⟩
    · rw [hslot] at hy
      cases hy
    · rw [hslot, Option.some.injEq, Slot.mk.injEq] at hy
      exact ⟨some x, by rw [hy.1], fun _ => nofun⟩
  · rw [if_neg hs]
    exact ⟨content, hslot, hk⟩

/-- Freeing an instance frees its slot once more, and no other. -/
theorem of_none (hf : Freed k h r) (hc : Changed r y ⟨y.generation + 1, none⟩ r')
    (hy : r.get? y = some x) : Freed (k + if y.slot = h.slot then 1 else 0) h r' := by
  obtain ⟨content, hslot, hk⟩ := hf
  rw [Freed, hc.slots]
  by_cases hs : y.slot = h.slot
  · rw [if_pos hs, if_pos (congrArg UInt32.toNat hs.symm)]
    rw [← hs, get?_eq_some.1 hy, Option.some.injEq, Slot.mk.injEq] at hslot
    refine ⟨none, ?_, fun h0 => absurd h0 (Nat.succ_ne_zero k)⟩
    rw [hslot.1, UInt32.add_assoc, UInt32.ofNat_add]
    rfl
  · have hs' : h.slot.toNat ≠ y.slot.toNat := fun he => hs (UInt32.toNat_inj.1 he.symm)
    rw [if_neg hs, if_neg hs']
    exact ⟨content, hslot, hk⟩

/-- The generation of a slot comes round when it was freed as often as there are generations. -/
theorem generation_eq_iff (g : UInt32) (k : Nat) :
    g + UInt32.ofNat k = g ↔ 2 ^ 32 ∣ k := by
  have hg := g.toNat_lt
  have hk : (UInt32.ofNat k).toNat = k % 2 ^ 32 := UInt32.toNat_ofNat'
  rw [← UInt32.toNat_inj, UInt32.toNat_add, hk, Nat.dvd_iff_mod_eq_zero]
  omega

/-- A handle is good for what its slot holds exactly if its generation has come round. -/
theorem get?_eq (hf : Freed k h r) :
    r.get? h = if 2 ^ 32 ∣ k then r.slots[h.slot.toNat]?.bind (·.content) else none := by
  obtain ⟨content, hslot, -⟩ := hf
  rw [get?, hslot]
  simp only [generation_eq_iff]
  rfl

end Freed

/-- How often the slot of a handle was freed can be read off what happened since the handle was
issued. -/
theorem History.freed {limit : Nat} {es : List Event} (hlimit : limit ≤ 2 ^ 32)
    (H : History limit es r) :
    ∀ later h earlier, es = later ++ .issued h :: earlier → Freed (removals h.slot later) h r := by
  induction H with
  | empty =>
    intro later h earlier he
    cases later <;> cases he
  | @insert es r r' symbol tag x y H hi ih =>
    intro later h earlier he
    obtain ⟨hr, hl⟩ := H.sound hlimit
    obtain ⟨hy, hc, -⟩ := insert_eq_ok hr (hl ▸ hlimit) hi
    rcases later with _ | ⟨e, later⟩
    · obtain ⟨hyh, -⟩ := List.cons.inj he
      obtain rfl := Event.issued.inj hyh
      refine ⟨some x, ?_, fun _ => nofun⟩
      rw [hc.slots, if_pos rfl, removals_nil]
      simp
    · obtain ⟨rfl, hes⟩ := List.cons.inj he
      rw [removals_issued]
      exact (ih later h earlier hes).of_some hc (hy.imp_right fun hy => ⟨_, hy⟩)
  | @remove es r r' y H hi ih =>
    intro later h earlier he
    obtain ⟨⟨x, hx⟩, hc, -⟩ := remove_eq_ok (H.sound hlimit).1 hi
    rcases later with _ | ⟨e, later⟩
    · cases (List.cons.inj he).1
    · obtain ⟨rfl, hes⟩ := List.cons.inj he
      rw [removals_removed]
      exact (ih later h earlier hes).of_none hc hx
  | put H hx y ih =>
    intro later h earlier he
    exact (ih later h earlier he).of_some (changed_put hx) (.inr ⟨_, get?_eq_some.1 hx⟩)

/-- A handle that a registry issued reads its instance until that is freed. From then on it reads
nothing, until its slot was freed as often as there are generations; then it reads whatever the slot
holds. -/
theorem History.get {limit : Nat} {later earlier : List Event} (hlimit : limit ≤ 2 ^ 32)
    (H : History limit (later ++ .issued h :: earlier) r) :
    (removals h.slot later = 0 → ∃ x, r.get h = .ok x) ∧
      (0 < removals h.slot later → removals h.slot later < 2 ^ 32 →
        r.get h = .error .staleInstance) ∧
      ∀ x, r.get h = .ok x ↔
        2 ^ 32 ∣ removals h.slot later ∧ r.slots[h.slot.toNat]?.bind (·.content) = some x := by
  have hf := H.freed hlimit later h earlier rfl
  have hget := hf.get?_eq
  refine ⟨fun h0 => ?_, fun hpos hlt => ?_, fun x => ?_⟩
  · obtain ⟨content, hslot, hk⟩ := hf
    obtain ⟨x, rfl⟩ := Option.ne_none_iff_exists'.1 (hk h0)
    refine ⟨x, get_eq_ok.2 ?_⟩
    rw [hget, h0, if_pos (Nat.dvd_zero _), hslot]
    rfl
  · rw [if_neg (Nat.not_dvd_of_pos_of_lt hpos hlt)] at hget
    rw [Registry.get, hget]
  · rw [get_eq_ok, hget]
    exact Option.ite_none_right_eq_some

/-! ## A slot that is used again and again -/

/-- A registry with one slot, which was freed a number of times and holds an instance. -/
def reused (n : Nat) (x : Instance) : Registry := ⟨#[⟨UInt32.ofNat n, some x⟩], [], 1, 1⟩

/-- The handle that was issued for the slot then. -/
def reusedHandle (n : Nat) : Handle := ⟨0, UInt32.ofNat n, 0, .unknown⟩

/-- Freeing the instance and putting another one in its place. -/
theorem history_reused_succ {n : Nat} {x : Instance} {es : List Event}
    (H : History 1 es (reused n x)) (y : Instance) :
    History 1 (.issued (reusedHandle (n + 1)) :: .removed (reusedHandle n) :: es)
      (reused (n + 1) y) := by
  have hremove : (reused n x).remove (reusedHandle n) =
      .ok ⟨#[⟨UInt32.ofNat (n + 1), none⟩], [0], 0, 1⟩ := by
    have hget : (reused n x).get? (reusedHandle n) = some x := get?_eq_some.2 rfl
    have hsucc : UInt32.ofNat (n + 1) = UInt32.ofNat n + 1 := UInt32.ofNat_add n 1
    rw [remove, hget, hsucc]
    rfl
  have hinsert : (⟨#[⟨UInt32.ofNat (n + 1), none⟩], [0], 0, 1⟩ : Registry).insert 0 .unknown y =
      .ok (reusedHandle (n + 1), reused (n + 1) y) := rfl
  exact (H.remove hremove).insert hinsert

/-- A slot can be used any number of times. The first instance in it is freed by its own handle. -/
theorem exists_history_reused (x : Instance) (n : Nat) :
    ∃ later, History 1 (later ++ [.issued (reusedHandle 0)]) (reused n x) ∧
      (n ≠ 0 → .removed (reusedHandle 0) ∈ later) := by
  induction n with
  | zero =>
    refine ⟨[], ?_, fun h => absurd rfl h⟩
    have hinsert : (Registry.empty 1).insert 0 .unknown x = .ok (reusedHandle 0, reused 0 x) := rfl
    exact History.empty.insert hinsert
  | succ n ih =>
    obtain ⟨later, H, hremoved⟩ := ih
    refine ⟨_ :: _ :: later, history_reused_succ H x, fun _ => ?_⟩
    by_cases hn : n = 0
    · rw [hn]
      exact .tail _ (.head _)
    · exact .tail _ (.tail _ (hremoved hn))

end Registry

end ScriptMachine
