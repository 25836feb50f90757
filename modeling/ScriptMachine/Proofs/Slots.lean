import ScriptMachine.Proofs.Generation

/-!
# What the operations of a registry leave alone

Each operation of a registry is about one handle. Other handles may name the same slot in another
generation, or be copies of the same handle under another tag. What tells these cases apart is the
tenancy of a handle: an operation is seen through the handles of one tenancy, and through no other.

* `Handle.tenancy` – what tells the instances of a slot from each other.
* `Registry.get?_insert_of_ne`, `Registry.get?_put_of_ne`, `Registry.get?_remove_of_ne` – what the
  handles of another tenancy read.
* `Registry.insert_eq_error` – when an instance is refused.
* `Registry.handle_of_insert`, `Registry.live_insert` – what an instance that is put in adds.
* `Registry.Sound.live_eq` – the number of live instances is that of the slots that hold one.
-/

namespace ScriptMachine

/-- The slot of a handle, with the generation it was issued in. Copies of a handle have one
tenancy. -/
def Handle.tenancy (h : Handle) : UInt32 × UInt32 := (h.slot, h.generation)

theorem Handle.tenancy_inj {h k : Handle} :
    h.tenancy = k.tenancy ↔ h.slot = k.slot ∧ h.generation = k.generation :=
  Prod.mk.injEq .. |>.to_iff

namespace Registry

variable {r r' : Registry} {h k : Handle} {x y : Instance} {symbol : UInt32} {tag : InstanceTag}

/-! ## What an operation leaves alone -/

/-- Handles of one tenancy read the same. -/
theorem get?_congr (hk : k.tenancy = h.tenancy) : r.get? k = r.get? h := by
  obtain ⟨hslot, hgen⟩ := Handle.tenancy_inj.1 hk
  rw [get?, get?, hslot, hgen]

theorem get_congr (hk : k.tenancy = h.tenancy) : r.get k = r.get h := by
  rw [get, get, get?_congr hk]

theorem get_eq_of_get? (hk : r'.get? k = r.get? k) : r'.get k = r.get k := by
  rw [get, get, hk]

/-- A handle reads nothing exactly if looking it up fails. -/
theorem get_eq_error : r.get h = .error .staleInstance ↔ r.get? h = none := by
  rw [get]
  cases r.get? h with
  | none => simp
  | some x => simp

/-- A change of one slot is not seen through the handles of another. -/
theorem Changed.get?_of_slot_ne {s : Slot} (hc : Changed r h s r') (hk : k.slot ≠ h.slot) :
    r'.get? k = r.get? k := by
  have hne : k.slot.toNat ≠ h.slot.toNat := fun he => hk (UInt32.toNat_inj.1 he)
  rw [get?, get?, hc.slots, if_neg hne]

/-- A change in the generation that a slot is in is not seen through handles of another tenancy. -/
theorem Changed.get?_of_tenancy_ne {content content' : Option Instance}
    (hc : Changed r h ⟨h.generation, content⟩ r')
    (hs : r.slots[h.slot.toNat]? = none ∨ r.slots[h.slot.toNat]? = some ⟨h.generation, content'⟩)
    (hk : k.tenancy ≠ h.tenancy) : r'.get? k = r.get? k := by
  by_cases hslot : k.slot = h.slot
  · have hgen : h.generation ≠ k.generation :=
      fun he => hk (Handle.tenancy_inj.2 ⟨hslot, he.symm⟩)
    rw [get?, get?, hc.slots, hslot, if_pos rfl]
    rcases hs with hs | hs
    · simp [hs, hgen]
    · simp [hs, hgen]
  · exact hc.get?_of_slot_ne hslot

/-- A new instance is read through its handle. -/
theorem get?_insert (hr : Sound r) (hlimit : r.limit ≤ 2 ^ 32)
    (hi : r.insert symbol tag x = .ok (h, r')) : r'.get? h = some x := by
  obtain ⟨-, hc, -⟩ := insert_eq_ok hr hlimit hi
  rw [get?_eq_some, hc.slots, if_pos rfl]

/-- The slot of a new instance held none. -/
theorem get?_insert_before (hr : Sound r) (hlimit : r.limit ≤ 2 ^ 32)
    (hi : r.insert symbol tag x = .ok (h, r')) (hk : k.slot = h.slot) : r.get? k = none := by
  obtain ⟨hs, -, -⟩ := insert_eq_ok hr hlimit hi
  rw [get?, hk]
  rcases hs with hs | hs
  · simp [hs]
  · simp [hs]

/-- A new instance is not seen through the handles of others. -/
theorem get?_insert_of_ne (hr : Sound r) (hlimit : r.limit ≤ 2 ^ 32)
    (hi : r.insert symbol tag x = .ok (h, r')) (hk : k.tenancy ≠ h.tenancy) :
    r'.get? k = r.get? k := by
  obtain ⟨hs, hc, -⟩ := insert_eq_ok hr hlimit hi
  exact hc.get?_of_tenancy_ne hs hk

theorem get?_put (hx : r.get? h = some x) : (r.put h y).get? h = some y := by
  rw [get?_eq_some, (changed_put hx).slots, if_pos rfl]

theorem get?_put_of_ne (hx : r.get? h = some x) (hk : k.tenancy ≠ h.tenancy) :
    (r.put h y).get? k = r.get? k :=
  (changed_put hx).get?_of_tenancy_ne (.inr (get?_eq_some.1 hx)) hk

/-- An instance that is freed is read no more. -/
theorem get?_remove (hr : Sound r) (hi : r.remove h = .ok r') : r'.get? h = none := by
  obtain ⟨-, hc, -⟩ := remove_eq_ok hr hi
  rw [get?, hc.slots, if_pos rfl]
  simp

/-- What is freed is not seen through the handles of others. -/
theorem get?_remove_of_ne (hr : Sound r) (hi : r.remove h = .ok r')
    (hk : k.tenancy ≠ h.tenancy) : r'.get? k = r.get? k := by
  obtain ⟨⟨x, hx⟩, hc, -⟩ := remove_eq_ok hr hi
  by_cases hslot : k.slot = h.slot
  · have hgen : h.generation ≠ k.generation :=
      fun he => hk (Handle.tenancy_inj.2 ⟨hslot, he.symm⟩)
    have hnone : r.get? k = none := by
      rw [get?, hslot, get?_eq_some.1 hx]
      simp [hgen]
    rw [hnone, get?, hc.slots, hslot, if_pos rfl]
    simp
  · exact hc.get?_of_slot_ne hslot

/-! ## When an operation fails -/

/-- A registry refuses an instance exactly if it holds as many as it may. -/
theorem insert_eq_error {e : Error} :
    r.insert symbol tag x = .error e ↔ r.limit ≤ r.live ∧ e = .allocationExhausted r.limit := by
  rw [insert]
  by_cases hlive : r.limit ≤ r.live
  · simp [hlive, eq_comm]
  · simp [hlive]

/-- A live instance can be freed. -/
theorem exists_remove (hx : r.get? h = some x) : ∃ r', r.remove h = .ok r' := by
  rw [remove, hx]
  exact ⟨_, rfl⟩

/-- What is stale cannot be freed. -/
theorem remove_of_get? (hx : r.get? h = none) : r.remove h = .error .staleInstance := by
  rw [remove, hx]

/-! ## How many instances there are -/

/-- A handle names the symbol and the tag it was issued for. -/
theorem handle_of_insert (hi : r.insert symbol tag x = .ok (h, r')) :
    h.symbol = symbol ∧ h.tag = tag := by
  obtain ⟨-, rfl, -⟩ := insert_iff.1 hi
  exact ⟨rfl, rfl⟩

/-- An instance that is put into a registry is one more. -/
theorem live_insert (hi : r.insert symbol tag x = .ok (h, r')) :
    r'.live = r.live + 1 ∧ r'.limit = r.limit := by
  have hclaim : r.claim.2.live = r.live ∧ r.claim.2.limit = r.limit := by
    rw [claim]
    split
    · exact ⟨rfl, rfl⟩
    · exact ⟨rfl, rfl⟩
  obtain ⟨-, -, rfl⟩ := insert_iff.1 hi
  exact ⟨congrArg (· + 1) hclaim.1, hclaim.2⟩

/-- A new slot is in its first generation. -/
theorem generation_of_insert (hi : r.insert symbol tag x = .ok (h, r'))
    (hs : r.slots[h.slot.toNat]? = none) : h.generation = 0 := by
  obtain ⟨-, rfl, -⟩ := insert_iff.1 hi
  rw [handle]
  cases hslot : r.claim.2.slots[r.claim.1.toNat]? with
  | none => rfl
  | some s =>
    rcases slot_of_claim hslot with rfl | hbefore
    · rfl
    · cases hs.symm.trans hbefore

/-- There is one instance less once one is freed. -/
theorem Sound.live_remove (hr : Sound r) (hi : r.remove h = .ok r') :
    r'.live + 1 = r.live ∧ r'.limit = r.limit := by
  obtain ⟨⟨x, hx⟩, hc, -⟩ := remove_eq_ok hr hi
  have hlt := hr.length_free_lt hx
  have hcount := hr.count
  have hlive : r'.live = r.live - 1 := by
    rw [remove, hx] at hi
    rw [← Except.ok.inj hi]
  exact ⟨by omega, hc.limit⟩

/-- Counting the elements of a list is counting the positions where they are. -/
theorem countP_eq_countP_range {α : Type} (q : α → Bool) (l : List α) :
    l.countP q = (List.range l.length).countP fun n => l[n]?.any q := by
  induction l with
  | nil => rfl
  | cons a l ih =>
    rw [List.length_cons, List.range_succ_eq_map, List.countP_cons, List.countP_cons,
      List.countP_map, ih]
    rfl

/-- The free slots, as numbers of any size, are those without an instance. -/
theorem Sound.mem_map_free (hr : Sound r) (hlimit : r.limit ≤ 2 ^ 32) (n : Nat) :
    n ∈ r.free.map UInt32.toNat ↔ ∃ g, r.slots[n]? = some ⟨g, none⟩ := by
  rw [List.mem_map]
  constructor
  · rintro ⟨i, hi, rfl⟩
    exact (hr.mem_free i).1 hi
  · rintro ⟨g, hg⟩
    have hn : n < 2 ^ 32 :=
      Nat.lt_of_lt_of_le (Array.getElem?_eq_some_iff.1 hg).1 (Nat.le_trans hr.size_le hlimit)
    have htoNat : (UInt32.ofNat n).toNat = n := UInt32.toNat_ofNat_of_lt' hn
    exact ⟨.ofNat n, (hr.mem_free _).2 ⟨g, by rw [htoNat, hg]⟩, htoNat⟩

theorem Sound.nodup_map_free (hr : Sound r) : (r.free.map UInt32.toNat).Nodup :=
  hr.nodup.map fun _ _ he => UInt32.toNat_inj.1 he

/-- There are as many free slots as slots without an instance. -/
theorem Sound.length_free (hr : Sound r) (hlimit : r.limit ≤ 2 ^ 32) :
    r.free.length = r.slots.toList.countP fun s => s.content.isNone := by
  have hperm : (r.free.map UInt32.toNat).Perm
      ((List.range r.slots.toList.length).filter fun n =>
        r.slots.toList[n]?.any fun s => s.content.isNone) := by
    refine (List.perm_ext_iff_of_nodup hr.nodup_map_free (List.nodup_range.filter _)).2
      fun n => ?_
    rw [hr.mem_map_free hlimit, List.mem_filter, List.mem_range, Array.getElem?_toList,
      Option.any_eq_true]
    constructor
    · rintro ⟨g, hg⟩
      exact ⟨(Array.getElem?_eq_some_iff.1 hg).1, _, hg, rfl⟩
    · rintro ⟨-, ⟨g, content⟩, hs, hnone⟩
      obtain rfl : content = none := Option.isNone_iff_eq_none.1 hnone
      exact ⟨g, hs⟩
  rw [countP_eq_countP_range, List.countP_eq_length_filter, ← hperm.length_eq, List.length_map]

/-- The number of live instances is that of the slots that hold one. -/
theorem Sound.live_eq (hr : Sound r) (hlimit : r.limit ≤ 2 ^ 32) :
    r.live = r.slots.toList.countP fun s => s.content.isSome := by
  have hcount := hr.count
  have hsplit := List.length_eq_countP_add_countP (fun s : Slot => s.content.isSome)
    (l := r.slots.toList)
  have hfree := hr.length_free hlimit
  simp only [Bool.not_eq_true, Option.isSome_eq_false_iff, Bool.decide_eq_true] at hsplit
  rw [Array.length_toList] at hsplit
  omega

theorem Sound.live_le (hr : Sound r) : r.live ≤ r.limit := by
  have hcount := hr.count
  have hsize := hr.size_le
  omega

end Registry

end ScriptMachine
