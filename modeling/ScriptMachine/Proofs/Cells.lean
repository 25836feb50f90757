import ScriptMachine.Proofs.Shape

/-!
# Cells of storages

A storage is known by what its cells read, each under its own kind. Writing, binding and forgetting
are edits of cells: a cell that is not meant reads as before, under any kind.

* `Storage.get_set_self`, `Storage.get_set_of_ne` – what the cells read after a write.
* `Storage.get_forget_self`, `Storage.get_forget_of_ne` – what they read once an instance is
  forgotten.
* `Storage.set_zero_eq_bindCell` – binding an instance is a write, if there is room.
-/

namespace ScriptMachine

namespace Storage

variable {st st' : Storage} {k : CellKind} {i j : Nat} {v : CellValue} {h : Handle}

theorem cells?_eq_none_of_kind? (hk : st.kind? ≠ some k) : st.cells? k = none := by
  cases st with
  | empty => cases k <;> rfl
  | _ =>
    cases k with
    | _ => first | rfl | exact absurd rfl hk

/-- Reading the cells of a storage under their own kind. -/
theorem get_ofCells (cells : Array k.Content) : (ofCells k cells).get k i =
    match cells[i]? with
    | some c => .ok c
    | none => .error (.outOfRange cells.size) := by
  cases h : cells[i]? with
  | none => simp only [get, cells?_ofCells, h]
  | some c => simp only [get, cells?_ofCells, h]

/-- Reading the cells of a storage under another kind than their own. -/
theorem get_of_kind?_ne (hk : st.kind? ≠ some k) : st.get k i = .error (.wrongKind st.kind?) := by
  rw [get, cells?_eq_none_of_kind? hk]

/-- A write that succeeds replaces one of the cells. -/
theorem set_eq_ok (h : st.set i v = .ok st') : ∃ cells : Array v.1.Content,
    st = ofCells v.1 cells ∧ i < cells.size ∧ st' = ofCells v.1 (cells.setIfInBounds i v.2) := by
  rw [set] at h
  split at h
  · cases h
  · next cells hcells =>
    split at h
    · next hi => exact ⟨cells, (ofCells_of_cells? hcells).symm, hi, (Except.ok.inj h).symm⟩
    · cases h

/-- A cell reads what is written to it. -/
theorem get_set_self (h : st.set i v = .ok st') : st'.get v.1 i = .ok v.2 := by
  obtain ⟨cells, rfl, hi, rfl⟩ := set_eq_ok h
  rw [get_ofCells, Array.getElem?_setIfInBounds_self_of_lt hi]

/-- The other cells read as before, and so does every cell under another kind than its own. -/
theorem get_set_of_ne (h : st.set i v = .ok st') (hne : k ≠ v.1 ∨ j ≠ i) :
    st'.get k j = st.get k j := by
  obtain ⟨cells, rfl, hi, rfl⟩ := set_eq_ok h
  by_cases hk : k = v.1
  · obtain rfl := hk
    have hj : i ≠ j := (hne.resolve_left (fun hne => hne rfl)).symm
    rw [get_ofCells, get_ofCells, Array.getElem?_setIfInBounds_ne hj, Array.size_setIfInBounds]
  · have hother (cells : Array v.1.Content) : (ofCells v.1 cells).kind? ≠ some k := by
      rw [kind?_ofCells]
      exact fun he => hk (Option.some.inj he).symm
    rw [get_of_kind?_ne (hother _), get_of_kind?_ne (hother _), kind?_ofCells, kind?_ofCells]

/-- Forgetting an instance acts on each cell by itself. -/
theorem get_forget (st : Storage) (h : Handle) (j : Nat) :
    (st.forget h).get .inst j = (st.get .inst j).map fun c => if c = some h then none else c := by
  cases st with
  | insts cells =>
    show (ofCells .inst (cells.map _)).get .inst j = ((ofCells .inst cells).get .inst j).map _
    rw [get_ofCells, get_ofCells, Array.getElem?_map, Array.size_map]
    cases cells[j]? with
    | none => rfl
    | some c => rfl
  | _ => rfl

/-- A cell that refers to an instance is null once the instance is forgotten. -/
theorem get_forget_self (hj : st.get .inst j = .ok (some h)) :
    (st.forget h).get .inst j = .ok none := by
  rw [get_forget, hj]
  exact congrArg Except.ok (if_pos rfl)

/-- Every cell that does not refer to the instance reads as before. -/
theorem get_forget_of_ne (hne : k ≠ .inst ∨ st.get .inst j ≠ .ok (some h)) :
    (st.forget h).get k j = st.get k j := by
  by_cases hk : k = .inst
  · obtain rfl := hk
    rw [get_forget]
    cases hc : st.get .inst j with
    | error e => rfl
    | ok c =>
      have hother : c ≠ some h := fun he => hne.elim (fun hne => hne rfl) fun hne => hne (he ▸ hc)
      exact congrArg Except.ok (if_neg hother)
  · cases st with
    | insts cells =>
      have hkind (cells : Array (Option Handle)) : (insts cells).kind? ≠ some k :=
        fun he => hk (Option.some.inj he).symm
      rw [forget, get_of_kind?_ne (hkind _), get_of_kind?_ne (hkind _)]
      rfl
    | _ => rfl

/-- Binding an instance to a storage that has room for one writes its first cell. -/
theorem set_zero_eq_bindCell {n : Nat} (x : Option Handle) (h : st.shape = (some .inst, n + 1)) :
    st.set 0 ⟨.inst, x⟩ = .ok (Memory.bindCell x st) := by
  cases st with
  | insts cells =>
    have hsize : 0 < cells.size := Nat.lt_of_lt_of_eq (Nat.succ_pos n) (Prod.mk.inj h).2.symm
    have hset : (insts cells).set 0 ⟨.inst, x⟩ = .ok (.insts (cells.setIfInBounds 0 x)) :=
      if_pos hsize
    rw [Memory.bindCell, hset]
  | _ => cases (Prod.mk.inj h).1

end Storage

end ScriptMachine
