import ScriptMachine.Proofs.Handles
import ScriptMachine.Proofs.Moment
import ScriptMachine.Proofs.Possession

/-!
# Bindings to live instances

Freeing an instance clears the global variables and the current instance, but no other copy of its
handle, and such a copy can be bound again: an assignment takes it off the stack, and control that
goes back restores it. So bindings refer to live instances as long as no instance is freed while
there is another copy of its handle.

* `Permission.watching`, `Permission.living` – a host that minds the copies of a handle, and one
  that minds none but those it places itself.
* `Machine.Tracks` – whether all copies of a handle are good.
* `Machine.protects_tracks` – then they stay good.
* `Machine.lives_of_bound` – bindings refer to live instances.
* `Machine.not_lives_of_bound` – a binding that does not.
-/

namespace ScriptMachine

open Machine
open Relation (ReflTransGen)

variable {σ : Type} {x : Handle} {m m' : Machine σ}

/-- The permission of a host that minds the copies of a handle: it places the handle only while the
instance is live, and frees the instance only through that handle and when there is no copy that
would not be cleared. -/
def Permission.watching (x : Handle) : Permission σ where
  places memory v := decide (v = .inst (some x) → (memory.instances.get? x).isSome)
  frees m y := decide (y.slot = x.slot ∧ y.generation = x.generation → y = x ∧ ¬ m.Held x)
  places_live {memory y z} hy := by
    rw [decide_eq_true_iff]
    intro hv
    obtain rfl := Option.some.inj (Value.inst.inj hv)
    exact Option.isSome_iff_exists.2 ⟨z, hy⟩

/-- The permission of a host that places handles of live instances only, and frees any instance. -/
def Permission.living : Permission σ where
  places
    | memory, .inst (some x) => (memory.instances.get? x).isSome
    | _, _ => true
  frees _ _ := true
  places_live hy := Option.isSome_iff_exists.2 ⟨_, hy⟩

namespace Machine

/-- Whether all copies of a handle refer to a live instance, in a machine that started with room for
no more instances than there are slots. -/
structure Tracks (x : Handle) (m : Machine σ) : Prop where
  history : ∃ limit es, limit ≤ 2 ^ 32 ∧ Registry.History limit es m.memory.instances
  lives : m.Stores x → m.Lives x

/-- A machine that has not run yet has no copies of handles. -/
theorem tracks_new (x : Handle) (p : Script) {c : Config} (hc : c.maxInstances ≤ 2 ^ 32) :
    Tracks x (new p c : Machine σ) where
  history := ⟨c.maxInstances, [], hc, .empty⟩
  lives h := by
    rcases h with h | h | h
    · exact nomatch h
    · exact absurd h (Memory.not_holds_ofScript p _)
    · exact absurd (List.mem_singleton.1 h) (Option.some_ne_none x)

/-- An instance that is freed is no longer the current one. -/
theorem not_context_released (m : Machine σ) (x : Handle) (memory : Memory) :
    (m.released x memory).context ≠ some x := by
  rw [released]
  dsimp only
  split
  · exact nofun
  · assumption

/-- Only the handle itself is the handle as a value. -/
theorem eq_of_toValue {v : CellValue} (h : v.1.toValue v.2 = .inst (some x)) :
    v = ⟨.inst, some x⟩ := by
  obtain ⟨k, c⟩ := v
  cases k <;> cases h
  rfl

namespace Tracks

theorem history_of_edit (h : Tracks x m) (he : Edit m m') :
    ∃ limit es, limit ≤ 2 ^ 32 ∧ Registry.History limit es m'.memory.instances := by
  obtain ⟨limit, es, hlimit, H⟩ := h.history
  obtain ⟨later, H⟩ := exists_history_of_step he.memory H
  exact ⟨limit, _, hlimit, H⟩

/-- An edit keeps the copies good if it copies the handle of a live instance only and does not free
the instance. -/
theorem of_edit (h : Tracks x m) (he : Edit m m') (hs : m'.Stores x → m.Stores x ∨ m'.Lives x)
    (hl : m.Lives x → m'.Lives x) : Tracks x m' where
  history := h.history_of_edit he
  lives hx := (hs hx).elim (fun hx => hl (h.lives hx)) id

theorem of_moved (h : Tracks x m) (hm : Moved m m') : Tracks x m' where
  history := hm.memory ▸ h.history
  lives hx := by
    rw [Lives, hm.memory]
    refine h.lives ?_
    rw [Stores, hm.stack, hm.memory] at hx
    exact hx.imp_right fun hx => hx.imp_right fun hx => hm.contexts hx

/-- An edit of the memory alone. -/
theorem of_memory {memory : Memory} (h : Tracks x m) (he : Edit m { m with memory })
    (hx : memory.Holds x → m.memory.Holds x ∨ (memory.instances.get? x).isSome)
    (hl : (m.memory.instances.get? x).isSome → (memory.instances.get? x).isSome) :
    Tracks x { m with memory } := by
  refine h.of_edit he ?_ hl
  rintro (hstack | hmemory | hcontexts)
  · exact .inl (.inl hstack)
  · exact (hx hmemory).imp_left fun hx => .inr (.inl hx)
  · exact .inl (.inr (.inr hcontexts))

/-- A write copies what is written, which is to be good. -/
theorem of_stored {v : CellValue} {memory : Memory} (h : Tracks x m)
    (he : Edit m { m with memory }) (hm : m.memory.Stored v memory)
    (hv : v.1.toValue v.2 = .inst (some x) → m.Lives x) : Tracks x { m with memory } :=
  h.of_memory he (fun hx => (hm.holds hx).imp_right fun hx => hm.isSome_get? (hv hx))
    hm.isSome_get?

/-- Allocating an instance binds it, and it is live. -/
theorem of_alloc {key : SymbolKey} {s : Symbol} {tag : InstanceTag} {y : Handle} {memory : Memory}
    (h : Tracks x m) (hs : m.script.find key = .ok s)
    (hm : m.memory.alloc m.script s tag = .ok (y, memory)) : Tracks x { m with memory } := by
  have he : Edit m { m with memory } := .alloc hs hm
  obtain ⟨limit, es, hlimit, H⟩ := h.history
  obtain ⟨hsound, rfl⟩ := H.sound hlimit
  obtain ⟨cls, instances, -, hi, rfl⟩ := Memory.alloc_eq_ok hm
  obtain ⟨hslot, hc, -⟩ := Registry.insert_eq_ok hsound hlimit hi
  refine h.of_memory he ?_ (hc.isSome_get? (hslot.imp_right fun hslot => ⟨_, hslot⟩))
  rintro (hx | hx)
  · rcases Memory.binds_of_bind hx with hx | hx
    · exact .inl (.inl hx)
    · obtain rfl := Option.some.inj hx
      exact .inr (Option.isSome_iff_exists.2 ⟨_, hc.get?_self⟩)
  · rcases hc.holds hx with hx | ⟨z, hz, hx⟩
    · exact .inl (.inr hx)
    · obtain rfl := Option.some.inj hz
      exact absurd hx (Memory.not_holds_freshInstance _ _)

/-- An instance that is marked keeps its fields. -/
theorem of_markInitialized {y : Handle} {memory : Memory} (h : Tracks x m)
    (hm : m.memory.markInitialized y = .ok memory) : Tracks x { m with memory } := by
  have he : Edit m { m with memory } := .markInitialized hm
  obtain ⟨z, hz, rfl⟩ := Memory.markInitialized_eq_ok hm
  have hc := Registry.changed_put (y := { z with state := .initialized }) hz
  refine h.of_memory he ?_ (hc.isSome_get? (.inr ⟨_, Registry.get?_eq_some.1 hz⟩))
  rintro (hx | hx)
  · exact .inl (.inl hx)
  · rcases hc.holds hx with hx | ⟨z', hz', hx⟩
    · exact .inl (.inr hx)
    · obtain rfl := Option.some.inj hz'
      exact .inl (.inr (Registry.holds_of_get? hz hx))

/-- A plain edit keeps the copies good. -/
theorem of_plain (h : Tracks x m) (hp : Plain m m') : Tracks x m' := by
  have he := hp.edit
  cases hp with
  | push hentry =>
    refine h.of_edit he (fun hx => .inl (hx.imp_left fun hx => ?_)) id
    exact (List.mem_cons.1 hx).resolve_left fun hx => hentry x hx.symm
  | drop hs =>
    refine h.of_edit he (fun hx => .inl (hx.imp_left fun hx => ?_)) id
    exact hs ▸ List.mem_cons_of_mem _ hx
  | fail hu e =>
    -- the stack is dropped
    rw [poisonWith, hu] at he ⊢
    exact h.of_edit he (fun hx => .inl (hx.imp_left fun hx => absurd hx List.not_mem_nil)) id
  | report => exact h.of_moved ⟨rfl, rfl, List.Subset.refl _⟩
  | write hv hm =>
    exact h.of_stored he (Memory.stored_of_write hm) fun hx => absurd (eq_of_toValue hx) (hv x)
  | alloc hs hm => exact h.of_alloc hs hm
  | markInitialized hm => exact h.of_markInitialized hm
  | registerExternal hm =>
    obtain ⟨f, -, -, log, rfl, -⟩ := registerExternal_eq_ok hm
    exact h.of_moved ⟨rfl, rfl, List.Subset.refl _⟩
  | overrideFunction hm =>
    obtain ⟨f, -, -, rfl⟩ := overrideFunction_eq_ok hm
    exact h.of_moved ⟨rfl, rfl, List.Subset.refl _⟩
  | registerDefault => exact h.of_moved ⟨rfl, rfl, List.Subset.refl _⟩
  | reportUnregistered f =>
    rw [Machine.reportUnregistered]
    split
    · exact h
    · exact h.of_moved ⟨rfl, rfl, List.Subset.refl _⟩

/-- A value that is placed is a copy of a handle to a live instance, if of the handle at all. -/
theorem of_placed {v : Value} (h : Tracks x m) (hv : v = .inst (some x) → m.Lives x)
    (hp : Placed m v m') : Tracks x m' := by
  have he := hp.edit
  cases hp with
  | push =>
    refine h.of_edit he ?_ id
    rintro (hx | hx)
    · rcases List.mem_cons.1 hx with hx | hx
      · exact .inr (hv (Entry.value.inj hx).symm)
      · exact .inl (.inl hx)
    · exact .inl (.inr hx)
  | context =>
    refine h.of_edit he ?_ id
    rintro (hx | hx | hx)
    · exact .inl (.inl hx)
    · exact .inl (.inr (.inl hx))
    · rcases List.mem_cons.1 hx with hx | hx
      · exact .inr (hv (congrArg _ hx.symm))
      · exact .inl (.inr (.inr (List.mem_cons_of_mem _ hx)))
  | setSlot =>
    refine h.of_memory he ?_ id
    rintro (hx | hx)
    · exact (Memory.binds_of_bind hx).imp .inl fun hx => hv (congrArg _ hx)
    · exact .inl (.inr hx)
  | write hm => exact h.of_stored he (Memory.stored_of_write hm) hv
  | writeField hm => exact h.of_stored he (Memory.stored_of_writeField hm) hv

/-- Freeing another instance does not matter, and freeing the instance itself leaves no copy. -/
theorem of_freed {y : Handle} {memory : Memory} (h : Tracks x m)
    (hy : y.slot = x.slot ∧ y.generation = x.generation → y = x ∧ ¬ m.Held x)
    (hm : m.memory.free y = .ok memory) : Tracks x (m.released y memory) := by
  have he : Edit m (m.released y memory) := .free hm
  obtain ⟨limit, es, hlimit, H⟩ := h.history
  obtain ⟨hsound, rfl⟩ := H.sound hlimit
  obtain ⟨instances, hi, rfl⟩ := Memory.free_eq_ok hm
  obtain ⟨⟨z, hz⟩, hc, -⟩ := Registry.remove_eq_ok hsound hi
  have hfields : instances.Holds x → m.memory.instances.Holds x := fun hx =>
    (hc.holds hx).resolve_right fun ⟨_, hn, _⟩ => nomatch hn
  by_cases hyx : y = x
  · subst hyx
    obtain ⟨-, hheld⟩ := hy ⟨rfl, rfl⟩
    refine ⟨h.history_of_edit he, fun hx => absurd ?_ hheld⟩
    rcases hx with hx | (hx | hx) | hx
    · exact .inl hx
    · exact absurd rfl (Memory.binds_of_forget hx).2
    · exact .inr (.inl (hfields hx))
    · refine .inr (.inr ((List.mem_cons.1 hx).resolve_left fun hx => ?_))
      exact not_context_released m y _ hx.symm
  · refine h.of_edit he ?_ ?_
    · rintro (hx | (hx | hx) | hx)
      · exact .inl (.inl hx)
      · exact .inl (.inr (.inl (.inl (Memory.binds_of_forget hx).1)))
      · exact .inl (.inr (.inl (.inr (hfields hx))))
      · refine .inl (.inr (.inr (List.mem_cons.2 ((List.mem_cons.1 hx).imp_left fun hx => ?_))))
        rw [released] at hx
        grind
    · refine hc.isSome_get?_of_ne (Option.isSome_iff_exists.2 ⟨z, hz⟩) fun hsame => hyx ?_
      exact (hy ⟨hsame.1.symm, hsame.2.symm⟩).1

end Tracks

/-- The copies of a handle stay good under a host that minds them. -/
theorem protects_tracks (x : Handle) : Protects (σ := σ) (.watching x) (Tracks x) where
  plain h hp := h.of_plain hp
  placed h hv hp := h.of_placed (of_decide_eq_true hv) hp
  freed h hx hm := h.of_freed (of_decide_eq_true hx) hm
  moved h hm := h.of_moved hm
  found h hv := decide_eq_true fun hx => h.lives (stores_of_found hv hx)

/-! ## Bindings in any run -/

/-- The copies of a handle are good in a machine that has not run yet. They stay good at every
moment of any run, whether it ends or not, of host code that places the handle only while the
instance is live, and frees the instance only when there is no copy of the handle on the stack, in a
field of an instance, or in the frame of a caller; such copies, like what the body of an instance
displaces, are not cleared. So whatever a global variable or the current instance refers to is live.
Once an instance is freed, neither refers to it, in any machine whatever. -/
theorem lives_of_bound (x : Handle) :
    (∀ (p : Script) (c : Config), c.maxInstances ≤ 2 ^ 32 → Tracks x (new p c : Machine σ)) ∧
    (∀ (n steps : Nat) (r : Routine σ) (w : World σ) (t : Moment σ), Tracks x w.machine →
      Passes (.watching x) (.under (.watching x) n steps) ⟨.routine r, w⟩ t →
      Passes .any (.nested n steps) ⟨.routine r, w⟩ t ∧ Tracks x t.world.machine ∧
        ReflTransGen (fun a b => Change a b ∧ Tracks x b) w.machine t.world.machine) ∧
    (∀ m : Machine σ, Tracks x m → m.Bound x → m.Lives x) ∧
    ∀ m m' : Machine σ, free x m = (.ok (), m') → ¬ m'.Bound x := by
  refine ⟨fun p c hc => tracks_new x p hc, ?_, ?_, ?_⟩
  · intro n steps r w t hw h
    have hwithin := (protects_tracks x).within_of_passes_under h
    exact ⟨h.unrestricted, hwithin.holds hw, hwithin hw⟩
  · intro m hm hx
    exact hm.lives (stores_iff.2 (.inl hx))
  · intro m m' h
    rcases free_eq h with ⟨memory, hm, -, rfl⟩ | ⟨e, he, -⟩
    · rintro (hx | hx)
      · obtain ⟨instances, -, rfl⟩ := Memory.free_eq_ok hm
        exact (Memory.binds_of_forget hx).2 rfl
      · exact not_context_released m x memory hx
    · cases he

end Machine

/-! ## An instance that is freed by a callback -/

/-- A script with an instance, a variable for one, an external function, and a body. -/
def World.refilling (code : Code) : World Unit :=
  .fresh
    [.blank "C" 0 .cls none,
      { Symbol.blank "THING" 1 .inst (some 0) with flags := .const },
      .blank "V" 2 .inst (some 0),
      { Symbol.blank "HOST" 3 .func none with flags := .union .external .const, count := 0 },
      .body "MAIN" 4 0] code

/-- A host that allocates an instance and calls a body. Its callback frees the instance and
allocates another one. -/
def Routine.refilling : Routine Unit :=
  .ask (.alloc (.index 1) .unknown) fun
    | .error _ => .finish (.ok .void)
    | .ok x =>
      .registerExternal (.index 3) [] .void
        (fun _ => .ask (.free x) fun _ => .ask (.alloc (.index 1) .unknown) fun _ =>
          .finish (.ok .void))
        fun _ => .call (.index 4) [] none fun _ => .finish (.ok .void)

/-- The handle of the instance that is allocated first, or second, by `Routine.refilling`. -/
def Handle.refilled (generation : UInt32) : Handle := ⟨0, generation, 1, .unknown⟩

namespace Machine

/-- The body runs the callback, and then assigns the instance of the symbol to the variable. The
variable refers to the instance that was allocated last, until that is freed. -/
theorem lives_of_bound_of_refilling :
    ∃ w', Routine.runWithin 6 .refilling
        (.refilling #[62, 3, 0, 0, 0, 67, 1, 0, 0, 0, 65, 2, 0, 0, 0, 74, 60]) =
          some (.ok .void, w') ∧
      w'.machine.Bound (.refilled 1) ∧ w'.machine.Lives (.refilled 1) ∧
      ∃ m', free (.refilled 1) w'.machine = (.ok (), m') ∧ ¬ m'.Bound (.refilled 1) := by
  have hrun : ∃ p ∈ Routine.runUnder (.watching (.refilled 1)) 6 .refilling
      (.refilling #[62, 3, 0, 0, 0, 67, 1, 0, 0, 0, 65, 2, 0, 0, 0, 74, 60]),
      p.1 = .ok .void ∧ p.2.machine.Bound (.refilled 1) ∧
        (free (.refilled 1) p.2.machine).1 = .ok () := by decide +kernel
  obtain ⟨⟨_, w'⟩, h, rfl, hbound, hok⟩ := hrun
  have hlimit : Config.default.maxInstances ≤ 2 ^ 32 := by decide
  obtain ⟨hnew, hruns, hlives, hfree⟩ := lives_of_bound (σ := Unit) (.refilled 1)
  obtain ⟨-, htracks, -⟩ := hruns _ _ _ _ _ (hnew _ _ hlimit) (Routine.passes_of_runUnder h)
  have hwithin := Routine.runWithin_of_runUnder _ _ _ _ h
  rcases hf : free (.refilled 1) w'.machine with ⟨r, m'⟩
  obtain rfl : r = .ok () := by rw [← hok, hf]
  exact ⟨w', hwithin, hbound, hlives _ htracks hbound, m', hf, hfree _ _ hf⟩

/-- The body puts the instance of the symbol on the stack before it runs the callback, which frees
the instance, and assigns it to the variable afterwards. The host does not place any handle, yet the
variable refers to an instance that is gone. -/
theorem not_lives_of_bound :
    ∃ w', Routine.runUnder .living 6 .refilling
        (.refilling #[67, 1, 0, 0, 0, 62, 3, 0, 0, 0, 65, 2, 0, 0, 0, 74, 60]) =
          some (.ok .void, w') ∧
      w'.machine.Bound (.refilled 0) ∧ ¬ w'.machine.Lives (.refilled 0) := by
  have hrun : ∃ p ∈ Routine.runUnder .living 6 .refilling
      (.refilling #[67, 1, 0, 0, 0, 62, 3, 0, 0, 0, 65, 2, 0, 0, 0, 74, 60]),
      p.1 = .ok .void ∧ p.2.machine.Bound (.refilled 0) ∧ ¬ p.2.machine.Lives (.refilled 0) := by
    decide +kernel
  obtain ⟨⟨_, w'⟩, h, rfl, hx⟩ := hrun
  exact ⟨w', h, hx⟩

end Machine

end ScriptMachine
