import ScriptMachine.Host.Argument
import ScriptMachine.Proofs.Computation

/-!
# Typed arguments as values

The values of a list are taken at a list of types, from the front. This succeeds if there are enough
of them, each of the kind of its type, and none of them null where a type does not allow it. What is
taken stands for the values it was taken from, except that a truth value only tells whether a number
was zero.

* `ArgType.Takes`, `Args.Fits` – whether a value can be taken at a type, and values at types.
* `ArgType.normal` – the value that something taken stands for.
* `Args.exists_ofValues_iff` – when values are taken.
* `Args.HasNull` – the only way in which values of the right kinds can fail to be.
* `Args.conversion` – what is taken, and given back.
-/

namespace ScriptMachine

namespace ArgType

/-- Whether a value can be taken at a type: it is of its kind, and not null unless null is
allowed. -/
structure Takes (t : ArgType) (v : Value) : Prop where
  kind : v.kind = t.kind
  notNull : ¬(t = .handle ∧ v = .inst none)

/-- The value that what is taken at a type stands for: for a truth value this is one or zero. -/
def normal : ArgType → Value → Value
  | bool, .int n => .int (if n = 0 then 0 else 1)
  | _, v => v

/-- The error for null where it is not allowed. -/
def nullMismatch : Error := .stackTypeMismatch (.value .inst) .nullInstance

variable {t : ArgType} {v : Value} {e : Error}

/-! ## One value -/

theorem ofValue_of_takes (h : t.Takes v) :
    ∃ x, t.ofValue v = .ok x ∧ t.toValue x = t.normal v := by
  obtain ⟨hk, hnull⟩ := h
  cases t with
  | int | float | string | optHandle =>
    cases v <;> cases hk
    exact ⟨_, rfl, rfl⟩
  | bool =>
    cases v <;> cases hk
    next n =>
      refine ⟨_, rfl, ?_⟩
      rw [toValue, normal, Value.ofBool]
      by_cases hn : n = 0 <;> simp [hn]
  | handle =>
    cases v <;> cases hk
    next h =>
      cases h with
      | none => exact absurd ⟨rfl, rfl⟩ hnull
      | some h => exact ⟨h, rfl, rfl⟩

theorem ofValue_of_kind_ne (h : v.kind ≠ t.kind) : t.ofValue v = t.mismatch v := by
  cases t <;> cases v <;> first | rfl | exact absurd rfl h

theorem exists_ofValue_iff : (∃ x, t.ofValue v = .ok x) ↔ t.Takes v := by
  constructor
  · rintro ⟨x, h⟩
    constructor
    · refine Decidable.byContradiction fun hk => ?_
      cases (ofValue_of_kind_ne hk).symm.trans h
    · rintro ⟨rfl, rfl⟩
      cases h
  · intro h
    obtain ⟨x, hx, -⟩ := ofValue_of_takes h
    exact ⟨x, hx⟩

theorem toValue_of_ofValue {x : t.Carrier} (h : t.ofValue v = .ok x) :
    t.toValue x = t.normal v := by
  obtain ⟨y, hy, hv⟩ := ofValue_of_takes (exists_ofValue_iff.1 ⟨x, h⟩)
  obtain rfl := Except.ok.inj (hy.symm.trans h)
  exact hv

/-- A value of the right kind is taken, unless it is null. -/
theorem ofValue_eq_error (hk : v.kind = t.kind) :
    t.ofValue v = .error e ↔ (t = .handle ∧ v = .inst none) ∧ e = nullMismatch := by
  constructor
  · intro h
    by_cases hnull : t = .handle ∧ v = .inst none
    · obtain ⟨rfl, rfl⟩ := hnull
      exact ⟨⟨rfl, rfl⟩, (Except.error.inj h).symm⟩
    · obtain ⟨x, hx⟩ := exists_ofValue_iff.2 ⟨hk, hnull⟩
      cases hx.symm.trans h
  · rintro ⟨⟨rfl, rfl⟩, rfl⟩
    rfl

end ArgType

namespace Args

open ArgType

/-- Whether one of the values is null where this is not allowed. -/
def HasNull (ts : List ArgType) (vs : List Value) : Prop :=
  ∃ i : Nat, ts[i]? = some .handle ∧ vs[i]? = some (.inst none)

/-- Whether the values at the front of a list can be taken at types: there are enough, each is of
the kind of its type, and none is null where this is not allowed. -/
structure Fits (ts : List ArgType) (vs : List Value) : Prop where
  enough : ts.length ≤ vs.length
  kinds : (vs.take ts.length).map Value.kind = kinds ts
  notNull : ¬HasNull ts vs

variable {t : ArgType} {ts : List ArgType} {v : Value} {vs : List Value} {e : Error}

/-! ## Several values -/

theorem not_hasNull_nil : ¬HasNull [] vs := fun ⟨_, h, _⟩ => nomatch h

theorem hasNull_cons :
    HasNull (t :: ts) (v :: vs) ↔ (t = .handle ∧ v = .inst none) ∨ HasNull ts vs := by
  constructor
  · rintro ⟨_ | i, ht, hv⟩
    · exact .inl ⟨Option.some.inj ht, Option.some.inj hv⟩
    · exact .inr ⟨i, ht, hv⟩
  · rintro (⟨rfl, rfl⟩ | ⟨i, ht, hv⟩)
    · exact ⟨0, rfl, rfl⟩
    · exact ⟨i + 1, ht, hv⟩

theorem fits_nil : Fits [] vs := ⟨Nat.zero_le _, rfl, not_hasNull_nil⟩

theorem not_fits_of_nil : ¬Fits (t :: ts) [] := fun h => Nat.not_succ_le_zero _ h.enough

theorem fits_cons : Fits (t :: ts) (v :: vs) ↔ t.Takes v ∧ Fits ts vs := by
  constructor
  · rintro ⟨hlength, hkinds, hnull⟩
    obtain ⟨hk, hkinds⟩ := List.cons.inj hkinds
    rw [hasNull_cons, not_or] at hnull
    exact ⟨⟨hk, hnull.1⟩, Nat.le_of_succ_le_succ hlength, hkinds, hnull.2⟩
  · rintro ⟨⟨hk, hv⟩, hlength, hkinds, hnull⟩
    refine ⟨Nat.succ_le_succ hlength, List.cons_eq_cons.2 ⟨hk, hkinds⟩, ?_⟩
    rw [hasNull_cons, not_or]
    exact ⟨hv, hnull⟩

/-- Values are taken one after the other. -/
theorem ofValues_cons_eq_ok {x : Args (t :: ts)} :
    ofValues (t :: ts) (v :: vs) = .ok x ↔
      t.ofValue v = .ok x.1 ∧ ofValues ts vs = .ok x.2 := by
  rw [ofValues, Except.bind_eq_ok]
  constructor
  · rintro ⟨y, hy, h⟩
    obtain ⟨ys, hys, h⟩ := Except.bind_eq_ok.1 h
    obtain rfl := Except.ok.inj h
    exact ⟨hy, hys⟩
  · rintro ⟨hy, hys⟩
    exact ⟨_, hy, Except.bind_eq_ok.2 ⟨_, hys, rfl⟩⟩

/-- Values are taken exactly if they fit. -/
theorem exists_ofValues_iff : (∃ x, ofValues ts vs = .ok x) ↔ Fits ts vs := by
  induction ts generalizing vs with
  | nil => exact ⟨fun _ => fits_nil, fun _ => ⟨(), rfl⟩⟩
  | cons t ts ih =>
    cases vs with
    | nil => exact iff_of_false (fun ⟨_, h⟩ => nomatch h) not_fits_of_nil
    | cons v vs =>
      rw [fits_cons, ← exists_ofValue_iff, ← ih]
      constructor
      · rintro ⟨x, h⟩
        obtain ⟨hx, hxs⟩ := ofValues_cons_eq_ok.1 h
        exact ⟨⟨_, hx⟩, _, hxs⟩
      · rintro ⟨⟨x, hx⟩, xs, hxs⟩
        exact ⟨(x, xs), ofValues_cons_eq_ok.2 ⟨hx, hxs⟩⟩

/-- What is taken stands for the values at the front. -/
theorem toValues_of_ofValues {x : Args ts} (h : ofValues ts vs = .ok x) :
    toValues ts x = List.zipWith normal ts vs := by
  induction ts generalizing vs with
  | nil => rfl
  | cons t ts ih =>
    cases vs with
    | nil => cases h
    | cons v vs =>
      obtain ⟨hx, hxs⟩ := ofValues_cons_eq_ok.1 h
      rw [toValues, List.zipWith_cons_cons, toValue_of_ofValue hx, ih hxs]

theorem map_kind_toValues (x : Args ts) : (toValues ts x).map Value.kind = kinds ts := by
  induction ts with
  | nil => rfl
  | cons t ts ih =>
    rw [toValues, List.map_cons, kind_toValue, ih]
    rfl

theorem ofValues_toValues (x : Args ts) : ofValues ts (toValues ts x) = .ok x := by
  induction ts with
  | nil => rfl
  | cons t ts ih => exact ofValues_cons_eq_ok.2 ⟨ofValue_toValue t x.1, ih x.2⟩

/-- The only error for values of the right kinds is that for null. -/
theorem eq_nullMismatch_of_ofValues (hk : vs.map Value.kind = kinds ts)
    (h : ofValues ts vs = .error e) : e = nullMismatch := by
  induction ts generalizing vs with
  | nil => cases h
  | cons t ts ih =>
    cases vs with
    | nil => cases hk
    | cons v vs =>
      obtain ⟨hv, hvs⟩ := List.cons.inj hk
      cases hx : t.ofValue v with
      | error e' =>
        rw [ofValues, Except.bind_of_error hx] at h
        obtain rfl := Except.error.inj h
        exact ((ofValue_eq_error hv).1 hx).2
      | ok x =>
        rw [ofValues, Except.bind_of_ok hx] at h
        cases hxs : ofValues ts vs with
        | error e' =>
          rw [Except.bind_of_error hxs] at h
          obtain rfl := Except.error.inj h
          exact ih hvs hxs
        | ok xs => cases (Except.bind_of_ok hxs).symm.trans h

/-- Values of the right kinds fit, unless one of them is null where this is not allowed. -/
theorem fits_iff_not_hasNull (hk : vs.map Value.kind = kinds ts) : Fits ts vs ↔ ¬HasNull ts vs := by
  have hlength : vs.length = ts.length := by
    rw [← List.length_map, hk, kinds, List.length_map]
  have hall : (vs.take ts.length).map Value.kind = kinds ts := by
    rw [← hlength, List.take_length, hk]
  constructor
  · intro h
    exact h.notNull
  · intro h
    exact ⟨Nat.le_of_eq hlength.symm, hall, h⟩

/-- Values of the right kinds are not taken if one of them is null where this is not allowed. -/
theorem ofValues_of_hasNull (hk : vs.map Value.kind = kinds ts) (hn : HasNull ts vs) :
    ofValues ts vs = .error nullMismatch := by
  cases h : ofValues ts vs with
  | error e => rw [eq_nullMismatch_of_ofValues hk h]
  | ok x => exact absurd hn ((fits_iff_not_hasNull hk).1 (exists_ofValues_iff.1 ⟨x, h⟩))

/-! ## There and back -/

/-- Take any types. Values are taken at them exactly if there are at least as many values as types,
each one at the front is of the kind of its type, and none is null where this is not allowed; those
behind do not matter. Given back as values, what was taken is the values at the front in order, with
a one in place of every number but zero that was taken as a truth value. Whatever consists of these
types is given back as values of their kinds, and taken from them again. -/
theorem conversion (ts : List ArgType) :
    (∀ vs, (∃ x, ofValues ts vs = .ok x) ↔ Fits ts vs) ∧
    (∀ vs x, ofValues ts vs = .ok x → toValues ts x = List.zipWith normal ts vs) ∧
    ∀ x : Args ts, (toValues ts x).map Value.kind = kinds ts ∧
      ofValues ts (toValues ts x) = .ok x :=
  ⟨fun _ => exists_ofValues_iff, fun _ _ => toValues_of_ofValues,
    fun x => ⟨map_kind_toValues x, ofValues_toValues x⟩⟩

/-- A truth value, an instance that may be null and a number are taken from more values than needed.
No other instance is taken from null. -/
theorem conversion_of_surplus :
    ofValues [.bool, .optHandle, .int] [.int 7, .inst none, .int 3, .void] =
        .ok (true, none, 3, ()) ∧
      toValues [.bool, .optHandle, .int] (true, none, 3, ()) = [.int 1, .inst none, .int 3] ∧
      ¬∃ x, ofValues [.handle] [.inst none] = .ok x := by
  have htaken : ofValues [.bool, .optHandle, .int] [.int 7, .inst none, .int 3, .void] =
    .ok (true, none, 3, ()) := rfl
  obtain ⟨-, hback, -⟩ := conversion [.bool, .optHandle, .int]
  obtain ⟨hfits, -⟩ := conversion [.handle]
  refine ⟨htaken, (hback _ _ htaken).trans rfl, fun h => ?_⟩
  exact ((hfits _).1 h).notNull ⟨0, rfl, rfl⟩

end Args

end ScriptMachine
