import Mathlib.Data.Fintype.Pigeonhole
import ScriptMachine.Script.Basic

/-!
# Chains of parents

A symbol may have a parent, which may have one in turn. The links are those that a script stores, so
they may lead forward or backward in the table, out of it, or back to where they came from. The
class of a symbol is the first one on its chain. The search for it is cut off after as many symbols
as there are in the table: a chain that goes on longer has come back to where it was, and will not
lead to a class any more.

* `Script.ancestor?` – the symbol at a position of a chain.
* `Script.FirstClassAt` – whether the first class of a chain is at a position.
* `Script.classWithin_eq_some` – what is found in a number of steps.
* `Script.exists_ancestor?_eq` – a chain that is longer than the table runs in a circle.
* `Script.class_on_chain` – what the class of a symbol is.
-/

namespace ScriptMachine.Script

variable (p : Script)

/-- The parent of a symbol, if it has one that is in the table. -/
def parentOf? (s : Symbol) : Option Symbol := s.parent.bind p.symbolByIndex?

/-- The symbol at a position of the chain that goes from a symbol to its parent, and so on. -/
def ancestor? (s : Symbol) : Nat → Option Symbol
  | 0 => some s
  | n + 1 => (p.parentOf? s).bind fun t => ancestor? t n

/-- Whether the symbol at a position of a chain is a class, and none before it is. -/
structure FirstClassAt (s : Symbol) (n : Nat) (c : Symbol) : Prop where
  ancestor : p.ancestor? s n = some c
  type : c.type = .cls
  first : ∀ k < n, ∀ t ∈ p.ancestor? s k, t.type ≠ .cls

variable {p : Script} {s t c : Symbol} {i j k n : Nat}

/-! ## Positions -/

/-- Behind a symbol stands the chain of its parent. -/
theorem ancestor?_succ (h : p.parentOf? s = some t) (n : Nat) :
    p.ancestor? s (n + 1) = p.ancestor? t n := by
  rw [ancestor?, h, Option.bind_some]

/-- What follows a symbol on a chain are its own ancestors. -/
theorem ancestor?_add (s : Symbol) (i k : Nat) :
    p.ancestor? s (i + k) = (p.ancestor? s i).bind fun t => p.ancestor? t k := by
  induction i generalizing s with
  | zero => rw [Nat.zero_add, ancestor?, Option.bind_some]
  | succ i ih =>
    rw [Nat.succ_add, ancestor?, ancestor?, Option.bind_assoc]
    exact congrArg _ (funext ih)

/-- A chain does not go on behind its end. -/
theorem ancestor?_eq_none_of_le (h : p.ancestor? s n = none) (hn : n ≤ k) :
    p.ancestor? s k = none := by
  rw [← Nat.add_sub_cancel' hn, ancestor?_add, h, Option.bind_none]

/-- A chain that comes back to a symbol goes on as it did before. -/
theorem ancestor?_add_of_eq (h : p.ancestor? s i = p.ancestor? s j) (k : Nat) :
    p.ancestor? s (i + k) = p.ancestor? s (j + k) := by
  rw [ancestor?_add, h, ← ancestor?_add]

/-- The chain of a symbol of the table stays in the table. -/
theorem mem_of_ancestor? (hs : s ∈ p.symbols) (h : p.ancestor? s n = some t) :
    t ∈ p.symbols := by
  cases n with
  | zero =>
    obtain rfl := Option.some.inj h
    exact hs
  | succ n =>
    -- what is behind the first symbol was found at an index
    rw [ancestor?_add] at h
    obtain ⟨u, -, h⟩ := Option.bind_eq_some_iff.1 h
    obtain ⟨v, hv, h⟩ := Option.bind_eq_some_iff.1 h
    obtain rfl : v = t := Option.some.inj h
    obtain ⟨i, -, hv⟩ := Option.bind_eq_some_iff.1 hv
    exact Array.mem_of_getElem? hv

/-- A chain that ends does so at a symbol without a parent in the table. -/
theorem exists_parentOf?_eq_none (h : p.ancestor? s n = none) :
    ∃ k t, p.ancestor? s k = some t ∧ p.parentOf? t = none := by
  induction n generalizing s with
  | zero => cases h
  | succ n ih =>
    cases hs : p.parentOf? s with
    | none => exact ⟨0, s, rfl, hs⟩
    | some t =>
      obtain ⟨k, u, hu, hend⟩ := ih (ancestor?_succ hs n ▸ h)
      exact ⟨k + 1, u, (ancestor?_succ hs k).trans hu, hend⟩

theorem parentOf?_eq_none : p.parentOf? s = none ↔
    s.parent = none ∨ ∃ i, s.parent = some i ∧ p.symbolByIndex? i = none := by
  rw [parentOf?]
  cases s.parent <;> simp

/-! ## The search -/

theorem firstClassAt_zero : p.FirstClassAt s 0 c ↔ s = c ∧ c.type = .cls :=
  ⟨fun h => ⟨Option.some.inj h.ancestor, h.type⟩, fun h => ⟨congrArg some h.1, h.2, nofun⟩⟩

/-- The search goes on with the parent of a symbol that is no class. -/
theorem firstClassAt_succ : p.FirstClassAt s (n + 1) c ↔
    s.type ≠ .cls ∧ ∃ t, p.parentOf? s = some t ∧ p.FirstClassAt t n c := by
  constructor
  · rintro ⟨ha, hc, hfirst⟩
    obtain ⟨t, ht, ha⟩ := Option.bind_eq_some_iff.1 ha
    refine ⟨hfirst 0 (Nat.succ_pos n) s rfl, t, ht, ha, hc, fun k hk u hu => ?_⟩
    exact hfirst (k + 1) (Nat.succ_lt_succ hk) u ((ancestor?_succ ht k).trans hu)
  · rintro ⟨hs, t, ht, ha, hc, hfirst⟩
    refine ⟨(ancestor?_succ ht n).trans ha, hc, fun k hk u hu => ?_⟩
    cases k with
    | zero => exact Option.some.inj hu ▸ hs
    | succ k =>
      exact hfirst k (Nat.lt_of_succ_lt_succ hk) u ((ancestor?_succ ht k).symm.trans hu)

/-- What is found in a number of steps is the first class on the chain, if it is near enough. -/
theorem classWithin_eq_some :
    p.classWithin n s = some c ↔ ∃ k < n, p.FirstClassAt s k c := by
  induction n generalizing s with
  | zero => exact ⟨nofun, fun ⟨k, hk, _⟩ => absurd hk (Nat.not_lt_zero k)⟩
  | succ n ih =>
    rw [classWithin]
    by_cases hs : s.type = .cls
    · rw [if_pos hs, Option.some.injEq]
      constructor
      · rintro rfl
        exact ⟨0, Nat.succ_pos n, firstClassAt_zero.2 ⟨rfl, hs⟩⟩
      · rintro ⟨_ | k, -, h⟩
        · exact (firstClassAt_zero.1 h).1
        · exact absurd hs (firstClassAt_succ.1 h).1
    · have hparent : (s.parent.bind fun i => (p.symbolByIndex? i).bind (p.classWithin n)) =
          (p.parentOf? s).bind (p.classWithin n) := (Option.bind_assoc ..).symm
      rw [if_neg hs, hparent, Option.bind_eq_some_iff]
      constructor
      · rintro ⟨t, ht, h⟩
        obtain ⟨k, hk, h⟩ := ih.1 h
        exact ⟨k + 1, Nat.succ_lt_succ hk, firstClassAt_succ.2 ⟨hs, t, ht, h⟩⟩
      · rintro ⟨_ | k, hk, h⟩
        · obtain ⟨rfl, hc⟩ := firstClassAt_zero.1 h
          exact absurd hc hs
        · obtain ⟨-, t, ht, h⟩ := firstClassAt_succ.1 h
          exact ⟨t, ht, ih.2 ⟨k, Nat.lt_of_succ_lt_succ hk, h⟩⟩

/-! ## Circles -/

/-- A chain that is longer than the table has come back to a symbol: there are fewer places in the
table than positions on the chain. -/
theorem exists_ancestor?_eq (hs : s ∈ p.symbols)
    (h : p.ancestor? s p.symbols.size ≠ none) :
    ∃ i j t, i < j ∧ j ≤ p.symbols.size ∧ p.ancestor? s i = some t ∧
      p.ancestor? s j = some t := by
  have hplace : ∀ k : Fin (p.symbols.size + 1), ∃ i : Fin p.symbols.size,
      p.ancestor? s k = some p.symbols[i] := by
    intro k
    obtain ⟨t, ht⟩ : ∃ t, p.ancestor? s k = some t := by
      refine Option.ne_none_iff_exists'.1 fun hk => h ?_
      exact ancestor?_eq_none_of_le hk (Nat.le_of_lt_succ k.isLt)
    obtain ⟨i, hi, rfl⟩ := Array.mem_iff_getElem.1 (mem_of_ancestor? hs ht)
    exact ⟨⟨i, hi⟩, ht⟩
  choose place hplace using hplace
  obtain ⟨i, j, hne, hij⟩ := Fintype.exists_ne_map_eq_of_card_lt place (by simp)
  have heq : p.ancestor? s i = p.ancestor? s j := by rw [hplace, hplace, hij]
  rcases Nat.lt_or_gt_of_ne (Fin.val_ne_of_ne hne) with hlt | hlt
  · exact ⟨i, j, _, hlt, Nat.le_of_lt_succ j.isLt, hplace i, heq ▸ hplace i⟩
  · exact ⟨j, i, _, hlt, Nat.le_of_lt_succ i.isLt, hplace j, heq ▸ hplace j⟩

/-- The first class on a chain is nearer than the table is long: on a chain that came back before,
it would have been met before. -/
theorem FirstClassAt.lt_size (hs : s ∈ p.symbols) (h : p.FirstClassAt s n c) :
    n < p.symbols.size := by
  by_contra hn
  have hlong : p.ancestor? s p.symbols.size ≠ none := fun hnone => by
    cases h.ancestor.symm.trans (ancestor?_eq_none_of_le hnone (Nat.le_of_not_lt hn))
  obtain ⟨i, j, t, hij, hj, hi, hj'⟩ := exists_ancestor?_eq hs hlong
  have hjn : j ≤ n := Nat.le_trans hj (Nat.le_of_not_lt hn)
  have hback : p.ancestor? s (i + (n - j)) = some c := by
    rw [ancestor?_add_of_eq (hi.trans hj'.symm), Nat.add_sub_cancel' hjn, h.ancestor]
  exact h.first _ (by omega) c hback h.type

/-- If there is a class on a chain, there is a first one. -/
theorem exists_firstClassAt (ha : p.ancestor? s n = some t) (ht : t.type = .cls) :
    ∃ k c, p.FirstClassAt s k c := by
  classical
  have hex : ∃ k u, p.ancestor? s k = some u ∧ u.type = .cls := ⟨n, t, ha, ht⟩
  obtain ⟨c, hc, htype⟩ := Nat.find_spec hex
  exact ⟨_, c, hc, htype, fun k hk u hu hclass => Nat.find_min hex hk ⟨u, hu, hclass⟩⟩

/-! ## Classes -/

/-- Take a symbol of a script, wherever its chain of parents leads. Its class is the first one on
the chain, and it has none if there is no class on the chain. It does not matter that the search is
cut off: however many more steps it is given, it finds the same. A chain ends at a symbol without a
parent, or leads out of the table, or comes back to a symbol within as many steps as there are
symbols. -/
theorem class_on_chain (hs : s ∈ p.symbols) :
    (∀ c, p.classOf? s = some c ↔ ∃ n, p.FirstClassAt s n c) ∧
    (p.classOf? s = none ↔ ∀ n, ∀ t ∈ p.ancestor? s n, t.type ≠ .cls) ∧
    (∀ n, p.symbols.size ≤ n → p.classWithin n s = p.classOf? s) ∧
    ((∃ n t, p.ancestor? s n = some t ∧ t.parent = none) ∨
      (∃ n t i, p.ancestor? s n = some t ∧ t.parent = some i ∧ p.symbolByIndex? i = none) ∨
      ∃ i j t, i < j ∧ j ≤ p.symbols.size ∧ p.ancestor? s i = some t ∧
        p.ancestor? s j = some t) := by
  have hwithin : ∀ n, p.symbols.size ≤ n → ∀ c,
      p.classWithin n s = some c ↔ ∃ k, p.FirstClassAt s k c := by
    intro n hn c
    rw [classWithin_eq_some]
    constructor
    · rintro ⟨k, -, h⟩
      exact ⟨k, h⟩
    · rintro ⟨k, h⟩
      exact ⟨k, Nat.lt_of_lt_of_le (h.lt_size hs) hn, h⟩
  have hclass := hwithin _ (Nat.le_refl _)
  refine ⟨hclass, ?_, fun n hn => ?_, ?_⟩
  · rw [Option.eq_none_iff_forall_ne_some]
    constructor
    · intro h n t ha ht
      obtain ⟨k, c, hc⟩ := exists_firstClassAt ha ht
      exact h c ((hclass c).2 ⟨k, hc⟩)
    · intro h c hc
      obtain ⟨n, hn⟩ := (hclass c).1 hc
      exact h n c hn.ancestor hn.type
  · exact Option.ext fun c => (hwithin n hn c).trans (hclass c).symm
  · by_cases hend : p.ancestor? s p.symbols.size = none
    · obtain ⟨n, t, ht, hparent⟩ := exists_parentOf?_eq_none hend
      rcases parentOf?_eq_none.1 hparent with hnone | ⟨i, hi, hout⟩
      · exact .inl ⟨n, t, ht, hnone⟩
      · exact .inr (.inl ⟨n, t, i, ht, hi, hout⟩)
    · exact .inr (.inr (exists_ancestor?_eq hs hend))

/-- A script in which every slot is the child of the next one, and the last one that of the first.
The last one is of a given type. -/
def linked (type : DataType) : Script :=
  .ofParts 50
    [.blank "SELF" 0 .inst (some 1), .blank "OTHER" 1 .inst (some 2),
      .blank "VICTIM" 2 .inst (some 3), .blank "HERO" 3 .inst (some 4),
      .blank "ITEM" 4 type (some 0)]
    #[]

/-- If the last slot is a class, it is that of the first one, although the search gets there in its
last step. If it is none, the search goes round and finds nothing. -/
theorem class_on_chain_of_linked :
    (linked .cls).classOf? (.blank "SELF" 0 .inst (some 1)) =
        some (.blank "ITEM" 4 .cls (some 0)) ∧
      (linked .cls).classWithin 4 (.blank "SELF" 0 .inst (some 1)) = none ∧
      (linked .inst).classOf? (.blank "SELF" 0 .inst (some 1)) = none := by
  have hmem : ∀ type, Symbol.blank "SELF" 0 .inst (some 1) ∈ (linked type).symbols :=
    fun type => Array.mem_of_getElem? (i := 0) rfl
  obtain ⟨hclass, -⟩ := class_on_chain (hmem .cls)
  obtain ⟨-, hnone, -⟩ := class_on_chain (hmem .inst)
  refine ⟨(hclass _).2 ⟨4, rfl, rfl, by decide⟩, rfl, hnone.2 fun n t ht => ?_⟩
  have hinst : ∀ s ∈ (linked .inst).symbols, s.type ≠ .cls := by decide
  exact hinst t (mem_of_ancestor? (hmem .inst) ht)

end ScriptMachine.Script
