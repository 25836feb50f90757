import ScriptMachine.Proofs.Slots

/-!
# A ledger of instances

Slots, generations, the list of free slots and the number of live instances have to agree after
every operation, in whatever order they come and whatever handles they name. A ledger writes down
what a registry was asked for without any slots: the handles that were issued, and the instance that
each of them stands for as long as it is live. As long as no generation comes round, the slots
represent the ledger, and this is all there is to know of them.

* `Registry.serve` – what a registry does on a request.
* `Ledger.Agrees` – how the slots represent what was written down.
* `Ledger.Slab` – what can be relied on at any time.
* `Ledger.slab_of_requests` – it holds after every sequence of requests.
-/

namespace ScriptMachine

namespace Registry

/-- What a registry may be asked for. -/
inductive Request where
  | insert (symbol : UInt32) (tag : InstanceTag) (x : Instance)
  | remove (h : Handle)
  /-- Puts another instance in the place of the one a handle refers to. -/
  | update (h : Handle) (x : Instance)
  deriving DecidableEq

/-- What a registry answers to a request, which is the handle that was issued or used, and the
registry afterwards. -/
def serve (r : Registry) : Request → Except Error Handle × Registry
  | .insert symbol tag x =>
    match r.insert symbol tag x with
    | .ok (h, r') => (.ok h, r')
    | .error e => (.error e, r)
  | .remove h =>
    match r.remove h with
    | .ok r' => (.ok h, r')
    | .error e => (.error e, r)
  | .update h x =>
    match r.get h with
    | .ok _ => (.ok h, r.put h x)
    | .error e => (.error e, r)

/-- A request that fails changes nothing. -/
theorem serve_of_error {r : Registry} {q : Request} {e : Error} (h : (r.serve q).1 = .error e) :
    r.serve q = (.error e, r) := by
  cases q with
  | insert symbol tag x =>
    rw [serve] at h ⊢
    split at h
    · cases h
    · rw [Except.error.inj h]
  | remove y =>
    rw [serve] at h ⊢
    split at h
    · cases h
    · rw [Except.error.inj h]
  | update y x =>
    rw [serve] at h ⊢
    split at h
    · cases h
    · rw [Except.error.inj h]

end Registry

open Registry (Request Sound)

/-- A registry, with what it was asked for. -/
structure Ledger where
  registry : Registry
  /-- The handles that were issued, the latest first. -/
  issued : List Handle
  /-- The handles of live instances, each with what it stands for. -/
  held : List (Handle × Instance)
  /-- How many instances were freed. -/
  removals : Nat

namespace Ledger

/-- The ledger of a registry for at most `limit` instances that was asked for nothing. -/
def start (limit : Nat) : Ledger := ⟨.empty limit, [], [], 0⟩

/-- The ledger after a request. -/
def record (l : Ledger) (q : Request) : Ledger :=
  match q, l.registry.serve q with
  | .insert _ _ x, (.ok h, registry) =>
    { l with registry, issued := h :: l.issued, held := (h, x) :: l.held }
  | .remove _, (.ok h, registry) =>
    { l with
      registry
      held := l.held.filter fun e => e.1.tenancy ≠ h.tenancy
      removals := l.removals + 1 }
  | .update _ x, (.ok h, registry) =>
    { l with registry, held := l.held.map fun e => if e.1.tenancy = h.tenancy then (e.1, x) else e }
  | _, (.error _, registry) => { l with registry }

/-- The ledger of a registry for at most `limit` instances after a sequence of requests. -/
def ofRequests (limit : Nat) (qs : List Request) : Ledger := qs.foldl record (start limit)

variable {limit : Nat} {l : Ledger}

/-- A request either fails, or it is an operation that succeeds. -/
theorem record_cases (l : Ledger) (q : Request) :
    (∃ e, (l.registry.serve q).1 = .error e ∧ l.record q = l) ∨
    (∃ symbol tag x h r, q = .insert symbol tag x ∧ l.registry.insert symbol tag x = .ok (h, r) ∧
      l.record q = { l with registry := r, issued := h :: l.issued, held := (h, x) :: l.held }) ∨
    (∃ h r, q = .remove h ∧ l.registry.remove h = .ok r ∧
      l.record q = { l with
        registry := r
        held := l.held.filter fun e => e.1.tenancy ≠ h.tenancy
        removals := l.removals + 1 }) ∨
    ∃ h x y, q = .update h y ∧ l.registry.get? h = some x ∧
      l.record q = { l with
        registry := l.registry.put h y
        held := l.held.map fun e => if e.1.tenancy = h.tenancy then (e.1, y) else e } := by
  cases hq : (l.registry.serve q).1 with
  | error e =>
    refine .inl ⟨e, rfl, ?_⟩
    have hserve := Registry.serve_of_error hq
    cases q <;> simp only [record, hserve]
  | ok h =>
    right
    cases q with
    | insert symbol tag x =>
      left
      rw [Registry.serve] at hq
      split at hq
      · next k r hi =>
        refine ⟨symbol, tag, x, k, r, rfl, hi, ?_⟩
        simp only [record, Registry.serve, hi]
      · cases hq
    | remove k =>
      right; left
      rw [Registry.serve] at hq
      split at hq
      · next r hi =>
        refine ⟨k, r, rfl, hi, ?_⟩
        simp only [record, Registry.serve, hi]
      · cases hq
    | update k y =>
      right; right
      rw [Registry.serve] at hq
      split at hq
      · next x hx =>
        refine ⟨k, x, y, rfl, Registry.get_eq_ok.1 hx, ?_⟩
        simp only [record, Registry.serve, hx]
      · cases hq

/-- Instances that were freed stay freed. -/
theorem removals_le_record (l : Ledger) (q : Request) : l.removals ≤ (l.record q).removals := by
  rcases l.record_cases q with ⟨e, -, h⟩ | ⟨_, _, _, _, _, -, -, h⟩ | ⟨_, _, -, -, h⟩ |
    ⟨_, _, _, -, -, h⟩
  · exact Nat.le_of_eq (congrArg removals h).symm
  · exact Nat.le_of_eq (congrArg removals h).symm
  · exact Nat.le_trans (Nat.le_succ _) (Nat.le_of_eq (congrArg removals h).symm)
  · exact Nat.le_of_eq (congrArg removals h).symm

theorem removals_le_foldl (qs : List Request) (l : Ledger) :
    l.removals ≤ (qs.foldl record l).removals := by
  induction qs generalizing l with
  | nil => exact Nat.le_refl _
  | cons q qs ih => exact Nat.le_trans (l.removals_le_record q) (ih _)

/-! ## What is written down -/

/-- Whether an instance is written down for the tenancy of a handle. -/
def Holds (held : List (Handle × Instance)) (k : Handle) (z : Instance) : Prop :=
  ∃ j, (j, z) ∈ held ∧ j.tenancy = k.tenancy

section Holds

variable {held : List (Handle × Instance)} {h k : Handle} {x y z : Instance}

theorem holds_cons : Holds ((h, x) :: held) k z ↔
    (h.tenancy = k.tenancy ∧ z = x) ∨ Holds held k z := by
  constructor
  · rintro ⟨j, hj, hjk⟩
    rcases List.mem_cons.1 hj with hj | hj
    · obtain ⟨rfl, rfl⟩ := Prod.mk.inj hj
      exact .inl ⟨hjk, rfl⟩
    · exact .inr ⟨j, hj, hjk⟩
  · rintro (⟨hk, rfl⟩ | ⟨j, hj, hjk⟩)
    · exact ⟨h, .head _, hk⟩
    · exact ⟨j, .tail _ hj, hjk⟩

theorem holds_filter : Holds (held.filter fun e => e.1.tenancy ≠ h.tenancy) k z ↔
    k.tenancy ≠ h.tenancy ∧ Holds held k z := by
  simp only [Holds, List.mem_filter, decide_eq_true_eq]
  constructor
  · rintro ⟨j, ⟨hj, hne⟩, hjk⟩
    exact ⟨hjk ▸ hne, j, hj, hjk⟩
  · rintro ⟨hne, j, hj, hjk⟩
    exact ⟨j, ⟨hj, hjk ▸ hne⟩, hjk⟩

/-- Writing something else down for a tenancy leaves the handles as they are. -/
theorem map_fst_update : (held.map fun e => if e.1.tenancy = h.tenancy then (e.1, y) else e).map
    (·.1) = held.map (·.1) := by
  rw [List.map_map]
  refine List.map_congr_left fun e _ => ?_
  by_cases he : e.1.tenancy = h.tenancy
  · simp [he]
  · simp [he]

theorem holds_update_self (hk : k.tenancy = h.tenancy) :
    Holds (held.map fun e => if e.1.tenancy = h.tenancy then (e.1, y) else e) k z ↔
      z = y ∧ ∃ x, Holds held k x := by
  constructor
  · rintro ⟨j, hj, hjk⟩
    obtain ⟨e, he, hej⟩ := List.mem_map.1 hj
    split at hej
    · obtain ⟨rfl, rfl⟩ := Prod.mk.inj hej
      exact ⟨rfl, e.2, e.1, he, hjk⟩
    · next hne =>
      obtain rfl := hej
      exact absurd (hjk.trans hk) hne
  · rintro ⟨rfl, x, j, hj, hjk⟩
    exact ⟨j, List.mem_map.2 ⟨_, hj, if_pos (hjk.trans hk)⟩, hjk⟩

theorem holds_update_of_ne (hk : k.tenancy ≠ h.tenancy) :
    Holds (held.map fun e => if e.1.tenancy = h.tenancy then (e.1, y) else e) k z ↔
      Holds held k z := by
  constructor
  · rintro ⟨j, hj, hjk⟩
    obtain ⟨e, he, hej⟩ := List.mem_map.1 hj
    split at hej
    · next heq =>
      obtain ⟨rfl, -⟩ := Prod.mk.inj hej
      exact absurd (hjk.symm.trans heq) hk
    · obtain rfl := hej
      exact ⟨j, he, hjk⟩
  · rintro ⟨j, hj, hjk⟩
    exact ⟨j, List.mem_map.2 ⟨_, hj, if_neg (hjk ▸ hk)⟩, hjk⟩

end Holds

/-! ## How the slots represent the ledger -/

/-- Whether the slot of a handle is not behind the handle, and ahead of it if the slot is free. -/
def Reached (r : Registry) (h : Handle) : Prop :=
  ∃ s : Slot, r.slots[h.slot.toNat]? = some s ∧ h.generation ≤ s.generation ∧
    (s.content = none → h.generation < s.generation)

/-- Whether the slots of a registry are in one of the first generations. -/
def Within (bound : Nat) (r : Registry) : Prop :=
  ∀ (n : Nat) (s : Slot), r.slots[n]? = some s → s.generation.toNat ≤ bound

section Changed

variable {r r' : Registry} {h k : Handle} {s : Slot}

/-- A slot may go on to a later generation, and has to if it is freed. -/
theorem Reached.changed (hk : Reached r k) (hc : r.Changed h s r')
    (hs : ∀ s₀ : Slot, r.slots[h.slot.toNat]? = some s₀ →
      s₀.generation ≤ s.generation ∧ (s.content = none → s₀.generation < s.generation)) :
    Reached r' k := by
  obtain ⟨s₀, hs₀, hle, hlt⟩ := hk
  rw [Reached, hc.slots]
  by_cases hn : k.slot.toNat = h.slot.toNat
  · rw [if_pos hn]
    rw [hn] at hs₀
    obtain ⟨hle', hlt'⟩ := hs s₀ hs₀
    exact ⟨s, rfl, UInt32.le_trans hle hle', fun hnone => UInt32.lt_of_le_of_lt hle (hlt' hnone)⟩
  · rw [if_neg hn]
    exact ⟨s₀, hs₀, hle, hlt⟩

theorem Within.changed {bound bound' : Nat} (hr : Within bound r) (hc : r.Changed h s r')
    (hs : s.generation.toNat ≤ bound') (hle : bound ≤ bound') : Within bound' r' := by
  intro n s' hs'
  rw [hc.slots] at hs'
  by_cases hn : n = h.slot.toNat
  · rw [if_pos hn] at hs'
    rwa [← Option.some.inj hs']
  · rw [if_neg hn] at hs'
    exact Nat.le_trans (hr n s' hs') hle

end Changed

/-- Whether the slots of a registry represent what was written down of it. -/
structure Agrees (limit : Nat) (l : Ledger) : Prop where
  sound : Sound l.registry
  limit_eq : l.registry.limit = limit
  get?_iff : ∀ k z, l.registry.get? k = some z ↔ Holds l.held k z
  nodup_slots : ((l.held.map (·.1)).map Handle.slot).Nodup
  issued_of_held : ∀ h ∈ l.held.map (·.1), h ∈ l.issued
  nodup_tenancies : (l.issued.map Handle.tenancy).Nodup
  reached : ∀ h ∈ l.issued, Reached l.registry h
  within : Within l.removals l.registry

theorem agrees_start (limit : Nat) : Agrees limit (start limit) where
  sound := Registry.sound_empty limit
  limit_eq := rfl
  get?_iff k z := by simp [start, Registry.get?, Registry.empty, Holds]
  nodup_slots := .nil
  issued_of_held := nofun
  nodup_tenancies := .nil
  reached := nofun
  within n s hs := by simp [start, Registry.empty] at hs

namespace Agrees

variable {symbol : UInt32} {tag : InstanceTag} {x y : Instance} {h : Handle} {r : Registry}

/-- A handle that is issued names a tenancy that no handle had before: its slot is new, or it was
freed after each of the handles that were issued for it. -/
theorem tenancy_ne_of_insert (ha : Agrees limit l) (hlimit : limit ≤ 2 ^ 32)
    (hi : l.registry.insert symbol tag x = .ok (h, r)) {k : Handle} (hk : k ∈ l.issued) :
    k.tenancy ≠ h.tenancy := by
  intro he
  obtain ⟨hslot, hgen⟩ := Handle.tenancy_inj.1 he
  obtain ⟨s, hs, -, hlt⟩ := ha.reached k hk
  obtain ⟨hvacant, -, -⟩ := Registry.insert_eq_ok ha.sound (ha.limit_eq ▸ hlimit) hi
  rw [← hslot, hs] at hvacant
  rcases hvacant with hvacant | hvacant
  · cases hvacant
  · obtain rfl := Option.some.inj hvacant
    have hlt' : k.generation < h.generation := hlt rfl
    rw [hgen] at hlt'
    exact UInt32.lt_irrefl _ hlt'

theorem insert (ha : Agrees limit l) (hlimit : limit ≤ 2 ^ 32)
    (hi : l.registry.insert symbol tag x = .ok (h, r)) :
    Agrees limit { l with registry := r, issued := h :: l.issued, held := (h, x) :: l.held } := by
  have hl : l.registry.limit ≤ 2 ^ 32 := ha.limit_eq ▸ hlimit
  obtain ⟨hvacant, hc, hsound⟩ := Registry.insert_eq_ok ha.sound hl hi
  -- the slot held nothing, so nothing was written down for it
  have hnone {k : Handle} {z : Instance} (hk : k.slot = h.slot) : ¬ Holds l.held k z := by
    rw [← ha.get?_iff, Registry.get?_insert_before ha.sound hl hi hk]
    exact nofun
  refine ⟨hsound, hc.limit.trans ha.limit_eq, fun k z => ?_, ?_, fun k hk => ?_, ?_,
    fun k hk => ?_, ?_⟩
  · rw [holds_cons]
    by_cases hk : k.tenancy = h.tenancy
    · have hslot := (Handle.tenancy_inj.1 hk).1
      simp [Registry.get?_congr hk, Registry.get?_insert ha.sound hl hi, hk, hnone hslot, eq_comm]
    · simp [Registry.get?_insert_of_ne ha.sound hl hi hk, ha.get?_iff, Ne.symm hk]
  · refine List.nodup_cons.2 ⟨fun hmem => ?_, ha.nodup_slots⟩
    obtain ⟨k, hk, hslot⟩ := List.mem_map.1 hmem
    obtain ⟨e, he, rfl⟩ := List.mem_map.1 hk
    exact hnone hslot ⟨e.1, he, rfl⟩
  · rcases List.mem_cons.1 hk with rfl | hk
    · exact .head _
    · exact .tail _ (ha.issued_of_held k hk)
  · refine List.nodup_cons.2 ⟨fun hmem => ?_, ha.nodup_tenancies⟩
    obtain ⟨k, hk, he⟩ := List.mem_map.1 hmem
    exact ha.tenancy_ne_of_insert hlimit hi hk he
  · rcases List.mem_cons.1 hk with rfl | hk
    · exact ⟨_, (hc.slots _).trans (if_pos rfl), UInt32.le_refl _, nofun⟩
    · refine (ha.reached k hk).changed hc fun s₀ hs₀ => ⟨?_, nofun⟩
      rw [hs₀] at hvacant
      rcases hvacant with hnew | hfree
      · cases hnew
      · rw [Option.some.inj hfree]
        exact UInt32.le_refl _
  · refine ha.within.changed hc ?_ (Nat.le_refl _)
    show h.generation.toNat ≤ l.removals
    rcases hvacant with hnew | hfree
    · rw [Registry.generation_of_insert hi hnew]
      exact Nat.zero_le _
    · exact ha.within _ _ hfree

theorem remove (ha : Agrees limit l) (hi : l.registry.remove h = .ok r)
    (hremovals : l.removals + 1 < 2 ^ 32) :
    Agrees limit { l with
      registry := r
      held := l.held.filter fun e => e.1.tenancy ≠ h.tenancy
      removals := l.removals + 1 } := by
  obtain ⟨⟨x, hx⟩, hc, hsound⟩ := Registry.remove_eq_ok ha.sound hi
  have hslot := Registry.get?_eq_some.1 hx
  -- the next generation is a later one, since the first does not come round yet
  have hle : h.generation.toNat ≤ l.removals := ha.within _ _ hslot
  have hnext : (h.generation + 1).toNat = h.generation.toNat + 1 := by
    rw [UInt32.toNat_add, UInt32.toNat_one]
    exact Nat.mod_eq_of_lt (Nat.lt_of_le_of_lt (Nat.succ_le_succ hle) hremovals)
  have hlt : h.generation < h.generation + 1 := by
    rw [UInt32.lt_iff_toNat_lt, hnext]
    exact Nat.lt_succ_self _
  refine ⟨hsound, hc.limit.trans ha.limit_eq, fun k z => ?_, ?_, fun k hk => ?_,
    ha.nodup_tenancies, fun k hk => ?_, ?_⟩
  · rw [holds_filter]
    by_cases hk : k.tenancy = h.tenancy
    · simp [Registry.get?_congr hk, Registry.get?_remove ha.sound hi, hk]
    · simp [Registry.get?_remove_of_ne ha.sound hi hk, ha.get?_iff, hk]
  · exact ha.nodup_slots.sublist ((List.filter_sublist.map _).map _)
  · exact ha.issued_of_held k ((List.filter_sublist.map _).subset hk)
  · refine (ha.reached k hk).changed hc fun s₀ hs₀ => ?_
    rw [hslot] at hs₀
    obtain rfl := Option.some.inj hs₀
    exact ⟨UInt32.le_of_lt hlt, fun _ => hlt⟩
  · refine ha.within.changed hc ?_ (Nat.le_succ _)
    show (h.generation + 1).toNat ≤ l.removals + 1
    rw [hnext]
    exact Nat.succ_le_succ hle

theorem update (ha : Agrees limit l) (hx : l.registry.get? h = some x) :
    Agrees limit { l with
      registry := l.registry.put h y
      held := l.held.map fun e => if e.1.tenancy = h.tenancy then (e.1, y) else e } := by
  have hc := Registry.changed_put (y := y) hx
  have hslot := Registry.get?_eq_some.1 hx
  refine ⟨ha.sound.put hx, hc.limit.trans ha.limit_eq, fun k z => ?_, ?_, fun k hk => ?_,
    ha.nodup_tenancies, fun k hk => ?_, ?_⟩
  · by_cases hk : k.tenancy = h.tenancy
    · have hold : ∃ x, Holds l.held k x := ⟨x, by rwa [← ha.get?_iff, Registry.get?_congr hk]⟩
      rw [holds_update_self hk, Registry.get?_congr hk, Registry.get?_put hx, Option.some.injEq,
        and_iff_left hold, eq_comm]
    · rw [holds_update_of_ne hk, Registry.get?_put_of_ne hx hk, ha.get?_iff]
  · rw [map_fst_update]
    exact ha.nodup_slots
  · rw [map_fst_update] at hk
    exact ha.issued_of_held k hk
  · refine (ha.reached k hk).changed hc fun s₀ hs₀ => ⟨?_, nofun⟩
    rw [hslot] at hs₀
    obtain rfl := Option.some.inj hs₀
    exact UInt32.le_refl _
  · refine ha.within.changed hc ?_ (Nat.le_refl _)
    show h.generation.toNat ≤ l.removals
    exact ha.within _ _ hslot

/-- Every request keeps the slots and the ledger in agreement, until a generation comes round. -/
theorem record (ha : Agrees limit l) (hlimit : limit ≤ 2 ^ 32) (q : Request)
    (hremovals : (l.record q).removals < 2 ^ 32) : Agrees limit (l.record q) := by
  rcases l.record_cases q with ⟨e, -, h⟩ | ⟨symbol, tag, x, k, r, -, hi, h⟩ | ⟨k, r, -, hi, h⟩ |
    ⟨k, x, y, -, hx, h⟩
  · rw [h]
    exact ha
  · rw [h]
    exact ha.insert hlimit hi
  · rw [h] at hremovals ⊢
    exact ha.remove hi hremovals
  · rw [h]
    exact ha.update hx

theorem foldl (hlimit : limit ≤ 2 ^ 32) (qs : List Request) (ha : Agrees limit l)
    (hremovals : (qs.foldl Ledger.record l).removals < 2 ^ 32) :
    Agrees limit (qs.foldl Ledger.record l) := by
  induction qs generalizing l with
  | nil => exact ha
  | cons q qs ih =>
    have hq := Nat.lt_of_le_of_lt (removals_le_foldl qs (l.record q)) hremovals
    exact ih (ha.record hlimit q hq) hremovals

end Agrees

/-! ## What can be relied on -/

/-- What can be relied on of a registry for at most `limit` instances. -/
structure Slab (limit : Nat) (l : Ledger) : Prop where
  /-- No free slot is listed twice. -/
  nodup_free : (l.registry.free.map UInt32.toNat).Nodup
  /-- The free slots are those without an instance. -/
  mem_free : ∀ n : Nat, n ∈ l.registry.free.map UInt32.toNat ↔
    ∃ s, l.registry.slots[n]? = some s ∧ s.content = none
  live_eq : l.registry.live = l.registry.slots.toList.countP fun s => s.content.isSome
  live_le : l.registry.live ≤ limit
  /-- An instance is refused when there are as many as the limit allows, and only then. -/
  insert_error : ∀ symbol tag x e, l.registry.insert symbol tag x = .error e ↔
    l.registry.live = limit ∧ e = .allocationExhausted limit
  /-- Otherwise it is put into a slot that held none, and its handle is told from all that were
  issued before. No other handle sees it. -/
  insert_ok : ∀ symbol tag x, l.registry.live ≠ limit → ∃ h r,
    l.registry.insert symbol tag x = .ok (h, r) ∧
      (∀ s, l.registry.slots[h.slot.toNat]? = some s → s.content = none) ∧
      r.slots[h.slot.toNat]? = some ⟨h.generation, some x⟩ ∧ r.get h = .ok x ∧
      (∀ k ∈ l.issued, k.tenancy ≠ h.tenancy) ∧
      ∀ k, k.tenancy ≠ h.tenancy → r.get k = l.registry.get k
  /-- Live handles are among those that were issued. -/
  held_issued : ∀ e ∈ l.held, e.1 ∈ l.issued
  /-- Different live handles use different slots. -/
  slot_ne : ∀ e ∈ l.held, ∀ e' ∈ l.held, e.1 ≠ e'.1 → e.1.slot ≠ e'.1.slot
  /-- A live handle reads what was put there for it. -/
  get_held : ∀ e ∈ l.held, l.registry.get e.1 = .ok e.2
  /-- A handle that was issued and is not live any more is stale, and cannot be freed again. -/
  stale : ∀ h ∈ l.issued, h ∉ l.held.map (·.1) →
    l.registry.get h = .error .staleInstance ∧ l.registry.remove h = .error .staleInstance
  /-- The handle of an instance that is freed is stale, and no other handle sees it. -/
  remove_held : ∀ e ∈ l.held, ∃ r, l.registry.remove e.1 = .ok r ∧
    r.get e.1 = .error .staleInstance ∧
    ∀ k, k.tenancy ≠ e.1.tenancy → r.get k = l.registry.get k
  /-- Handles that were issued are told from each other. -/
  tenancy_ne : ∀ h ∈ l.issued, ∀ k ∈ l.issued, h ≠ k → h.tenancy ≠ k.tenancy
  /-- What cannot be done changes nothing. -/
  serve_error : ∀ q e, (l.registry.serve q).1 = .error e → (l.registry.serve q).2 = l.registry

namespace Agrees

variable {symbol : UInt32} {tag : InstanceTag} {x : Instance} {h k : Handle}

theorem tenancy_ne (ha : Agrees limit l) (hh : h ∈ l.issued) (hk : k ∈ l.issued) (hne : h ≠ k) :
    h.tenancy ≠ k.tenancy :=
  fun he => hne (List.inj_on_of_nodup_map ha.nodup_tenancies hh hk he)

theorem slot_ne (ha : Agrees limit l) {e e' : Handle × Instance} (he : e ∈ l.held)
    (he' : e' ∈ l.held) (hne : e.1 ≠ e'.1) : e.1.slot ≠ e'.1.slot :=
  fun hslot => hne (List.inj_on_of_nodup_map ha.nodup_slots (List.mem_map.2 ⟨e, he, rfl⟩)
    (List.mem_map.2 ⟨e', he', rfl⟩) hslot)

theorem get?_held (ha : Agrees limit l) {e : Handle × Instance} (he : e ∈ l.held) :
    l.registry.get? e.1 = some e.2 :=
  (ha.get?_iff _ _).2 ⟨e.1, he, rfl⟩

/-- A handle that is read is a live one, or none that was issued. -/
theorem get?_eq_none (ha : Agrees limit l) (hh : h ∈ l.issued) (hnot : h ∉ l.held.map (·.1)) :
    l.registry.get? h = none := by
  rw [Option.eq_none_iff_forall_ne_some]
  intro x hx
  obtain ⟨k, hk, hkh⟩ := (ha.get?_iff h x).1 hx
  have hmem : k ∈ l.held.map (·.1) := List.mem_map.2 ⟨_, hk, rfl⟩
  have hne : h ≠ k := fun he => hnot (he ▸ hmem)
  exact ha.tenancy_ne hh (ha.issued_of_held k hmem) hne hkh.symm

theorem insert_eq_error (ha : Agrees limit l) {e : Error} :
    l.registry.insert symbol tag x = .error e ↔
      l.registry.live = limit ∧ e = .allocationExhausted limit := by
  have hle := ha.sound.live_le
  rw [ha.limit_eq] at hle
  rw [Registry.insert_eq_error, ha.limit_eq]
  constructor
  · rintro ⟨hge, rfl⟩
    exact ⟨Nat.le_antisymm hle hge, rfl⟩
  · rintro ⟨hlive, rfl⟩
    exact ⟨Nat.le_of_eq hlive.symm, rfl⟩

theorem exists_insert (ha : Agrees limit l) (symbol : UInt32) (tag : InstanceTag) (x : Instance)
    (hlive : l.registry.live ≠ limit) :
    ∃ h r, l.registry.insert symbol tag x = .ok (h, r) := by
  cases hi : l.registry.insert symbol tag x with
  | error e => exact absurd (ha.insert_eq_error.1 hi).1 hlive
  | ok hr => exact ⟨hr.1, hr.2, rfl⟩

/-- Slots that represent a ledger can be relied on. -/
theorem slab (ha : Agrees limit l) (hlimit : limit ≤ 2 ^ 32) : Slab limit l := by
  have hl : l.registry.limit ≤ 2 ^ 32 := ha.limit_eq ▸ hlimit
  exact {
    nodup_free := ha.sound.nodup_map_free
    mem_free := fun n => by
      rw [ha.sound.mem_map_free hl]
      constructor
      · rintro ⟨g, hg⟩
        exact ⟨_, hg, rfl⟩
      · rintro ⟨⟨g, content⟩, hs, rfl⟩
        exact ⟨g, hs⟩
    live_eq := ha.sound.live_eq hl
    live_le := ha.limit_eq ▸ ha.sound.live_le
    insert_error := fun _ _ _ _ => ha.insert_eq_error
    insert_ok := fun symbol tag x hlive => by
      obtain ⟨h, r, hi⟩ := ha.exists_insert symbol tag x hlive
      obtain ⟨hvacant, hc, -⟩ := Registry.insert_eq_ok ha.sound hl hi
      refine ⟨h, r, hi, fun s hs => ?_, (hc.slots _).trans (if_pos rfl),
        Registry.get_eq_ok.2 (Registry.get?_insert ha.sound hl hi),
        fun k hk => ha.tenancy_ne_of_insert hlimit hi hk,
        fun k hk => Registry.get_eq_of_get? (Registry.get?_insert_of_ne ha.sound hl hi hk)⟩
      rw [hs] at hvacant
      rcases hvacant with hnew | hfree
      · cases hnew
      · rw [Option.some.inj hfree]
    held_issued := fun e he => ha.issued_of_held e.1 (List.mem_map.2 ⟨e, he, rfl⟩)
    slot_ne := fun e he e' he' hne => ha.slot_ne he he' hne
    get_held := fun e he => Registry.get_eq_ok.2 (ha.get?_held he)
    stale := fun h hh hnot =>
      have hnone := ha.get?_eq_none hh hnot
      ⟨Registry.get_eq_error.2 hnone, Registry.remove_of_get? hnone⟩
    remove_held := fun e he => by
      obtain ⟨r, hr⟩ := Registry.exists_remove (ha.get?_held he)
      exact ⟨r, hr, Registry.get_eq_error.2 (Registry.get?_remove ha.sound hr),
        fun k hk => Registry.get_eq_of_get? (Registry.get?_remove_of_ne ha.sound hr hk)⟩
    tenancy_ne := fun h hh k hk hne => ha.tenancy_ne hh hk hne
    serve_error := fun q e he => by rw [Registry.serve_of_error he] }

end Agrees

/-- Take a registry for at most 2 ^ 32 instances and any requests, with any handles, of which fewer
than 2 ^ 32 free an instance. Its slots, the free ones among them and the number of live instances
agree, no two live handles share a slot, and each operation is seen through its own handle only. -/
theorem slab_of_requests (limit : Nat) (hlimit : limit ≤ 2 ^ 32) (qs : List Request)
    (hremovals : (ofRequests limit qs).removals < 2 ^ 32) : Slab limit (ofRequests limit qs) :=
  (Agrees.foldl hlimit qs (agrees_start limit) hremovals).slab hlimit

/-- An instance of a class, before its body has run. -/
def bare (cls : UInt32) : Instance := ⟨cls, .allocated, #[]⟩

/-- Requests that fill two slots, ask for a third one, free the first slot twice, and use it
again. -/
def fillAndReuse : List Request :=
  [.insert 10 .npc (bare 1), .insert 11 .item (bare 2), .insert 12 .npc (bare 3),
    .remove ⟨0, 0, 10, .npc⟩, .remove ⟨0, 0, 10, .npc⟩, .insert 12 .npc (bare 3)]

/-- The refused requests leave no trace, and the slot that was freed is used in its next
generation. -/
theorem slab_of_fillAndReuse : (2 : Nat) ≤ 2 ^ 32 ∧ (ofRequests 2 fillAndReuse).removals < 2 ^ 32 ∧
    Slab 2 (ofRequests 2 fillAndReuse) ∧
    (ofRequests 2 fillAndReuse).held =
      [(⟨0, 1, 12, .npc⟩, bare 3), (⟨1, 0, 11, .item⟩, bare 2)] ∧
    (ofRequests 2 fillAndReuse).issued =
      [⟨0, 1, 12, .npc⟩, ⟨1, 0, 11, .item⟩, ⟨0, 0, 10, .npc⟩] := by
  have hremovals : (ofRequests 2 fillAndReuse).removals < 2 ^ 32 := by decide
  refine ⟨by decide, hremovals, slab_of_requests 2 (by decide) fillAndReuse hremovals, ?_, ?_⟩
  · decide
  · decide

end Ledger

end ScriptMachine
