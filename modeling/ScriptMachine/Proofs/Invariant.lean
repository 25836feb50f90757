import ScriptMachine.Proofs.Run

/-!
# Invariants of a run

A run changes a machine step by step. An invariant that is kept by plain edits, by whatever a host
is permitted, and by moves of control holds after every single change of a run, provided that
whatever a script finds in a machine may be placed there. With no invariant at all, this says that a
run consists of changes.

* `Machine.Found` – what a script finds in a machine.
* `Machine.Protects` – the invariants in question.
* `Machine.Within` – changes after each of which an invariant holds.
* `Machine.Protects.within_of_step`, `Machine.Protects.heeds` – steps and bodies keep an invariant.
* `Routine.evolves_runWithin` – a run consists of changes.
-/

namespace ScriptMachine

namespace Machine

variable {σ : Type} {m m' : Machine σ}

open Relation (ReflTransGen)

/-! ## What a script does to a machine -/

/-- The values that a script finds in a machine: what an entry on the stack serves as, and the
instance that is bound to a symbol. -/
inductive Found (m : Machine σ) : Value → Prop where
  | popped {e : Entry} {k : CellKind} {c : k.Content} (he : e ∈ m.stack)
      (hc : m.content? k e = some (.ok c)) : Found m (k.toValue c)
  | bound (i : UInt32) : Found m (.inst (m.memory.bound i))

/-- The current instance, and those that control goes back to. -/
def contexts (m : Machine σ) : List (Option Handle) := m.context :: m.frames.map (·.context)

/-- A move of control: no instance is the current one, or that of a caller, that was not so
before. -/
structure Moved (m m' : Machine σ) : Prop where
  stack : m'.stack = m.stack
  memory : m'.memory = m.memory
  contexts : m'.contexts ⊆ m.contexts

namespace Moved

theorem trans {a b c : Machine σ} (h : Moved a b) (h' : Moved b c) : Moved a c :=
  ⟨h'.stack.trans h.stack, h'.memory.trans h.memory, List.Subset.trans h'.contexts h.contexts⟩

theorem fetched (m : Machine σ) (i : Instruction) : Moved m (m.fetched i) :=
  ⟨rfl, rfl, List.Subset.refl _⟩

theorem jump (m : Machine σ) (target : UInt32) : Moved m { m with pc := target } :=
  ⟨rfl, rfl, List.Subset.refl _⟩

theorem entered (m : Machine σ) (function : Option UInt32) (target : UInt32) (hostEntry : Bool) :
    Moved m (m.entered function target hostEntry) :=
  ⟨rfl, rfl, List.cons_subset.2 ⟨List.mem_cons_self, List.Subset.refl _⟩⟩

theorem leave (m : Machine σ) : Moved m m.leave.2 := by
  rw [Machine.leave]
  split
  · exact ⟨rfl, rfl, List.Subset.refl _⟩
  · next f rest hf =>
    refine ⟨rfl, rfl, ?_⟩
    rw [Machine.contexts, Machine.contexts, hf, List.map_cons]
    exact List.subset_cons_self _ _

theorem unwind (m : Machine σ) (base : Nat) : Moved m (m.unwind base) := by
  rw [Machine.unwind]
  split
  · split
    · exact ⟨rfl, rfl, List.Subset.refl _⟩
    · next f rest hf =>
      refine ⟨rfl, rfl, List.subset_cons_of_subset _ ?_⟩
      have hsub : f :: rest ⊆ m.frames := hf ▸ List.drop_subset _ _
      exact List.map_subset (·.context) hsub
  · exact ⟨rfl, rfl, List.Subset.refl _⟩

end Moved

/-- An instruction after which a body is left does nothing else. -/
theorem eq_of_leave {eff : Effect} {op : Operand} {r : Except Error Flow}
    (h : Performs m eff op r m') (hr : r = .ok .leave) : m' = m ∧ eff = .leave := by
  cases h with
  | leaves => exact ⟨rfl, rfl⟩
  | fails | proceeds | jumps | enters | external | override => cases hr

/-! ## Invariants -/

/-- Whether an invariant is kept by plain edits, by whatever a permission allows, and by moves of
control, and lets whatever a script finds in a machine be placed there. -/
structure Protects (P : Permission σ) (Q : Machine σ → Prop) : Prop where
  plain : ∀ {m m'}, Q m → Plain m m' → Q m'
  placed : ∀ {m m' v}, Q m → P.places m.memory v = true → Placed m v m' → Q m'
  freed : ∀ {m x memory}, Q m → P.frees m x = true → m.memory.free x = .ok memory →
    Q (m.released x memory)
  moved : ∀ {m m'}, Q m → Moved m m' → Q m'
  found : ∀ {m v}, Q m → Found m v → P.places m.memory v = true

/-- Whether one machine becomes another by changes after each of which an invariant holds, if it
holds at first. -/
def Within (Q : Machine σ → Prop) (m m' : Machine σ) : Prop :=
  Q m → ReflTransGen (fun a b => Change a b ∧ Q b) m m'

namespace Within

variable {Q : Machine σ → Prop}

theorem refl (m : Machine σ) : Within Q m m := fun _ => .refl

theorem of_change (h : Change m m') (hQ : Q m → Q m') : Within Q m m' :=
  fun hm => .single ⟨h, hQ hm⟩

theorem holds (h : Within Q m m') (hm : Q m) : Q m' := by
  cases h hm with
  | refl => exact hm
  | tail _ h => exact h.2

theorem trans {a b c : Machine σ} (h : Within Q a b) (h' : Within Q b c) : Within Q a c :=
  fun ha => (h ha).trans (h' (h.holds ha))

end Within

/-- Changes keep no invariant in particular. -/
theorem within_true_iff : Within (fun _ => True) m m' ↔ Evolves m m' :=
  ⟨fun h => ReflTransGen.mono (fun _ _ h => h.1) _ _ (h trivial),
    fun h _ => ReflTransGen.mono (fun _ _ h => ⟨h, trivial⟩) _ _ h⟩

theorem protects_true : Protects (σ := σ) .any fun _ => True where
  plain _ _ := trivial
  placed _ _ _ := trivial
  freed _ _ _ := trivial
  moved _ _ := trivial
  found _ _ := rfl

namespace Protects

variable {P : Permission σ} {Q : Machine σ → Prop} (hQ : Protects P Q)

include hQ

/-- What is permitted consists of changes after which the invariant holds. -/
theorem governs : Governs P (Within Q) where
  refl := .refl
  trans := .trans
  plain h := .of_change (.edit h.edit) fun hm => hQ.plain hm h
  placed hv h := .of_change (.edit h.edit) fun hm => hQ.placed hm hv h
  freed hx h := .of_change (.edit (.free h)) fun hm => hQ.freed hm hx h

/-- A script may place what it finds. -/
theorem placed_of_found {v : Value} (hv : Found m v) (h : Placed m v m') : Within Q m m' :=
  .of_change (.edit h.edit) fun hm => hQ.placed hm (hQ.found hm hv) h

/-! ## Instructions -/

section

variable {i : Instruction}

theorem within_of_assign (op : Operand) {k : CellKind} {r : Except Error Flow}
    (h : perform i (.assign k) op m = (r, m')) : Within Q m m' := by
  have := hQ.governs.toAbsorbs
  rcases assign_cases h with hp | ⟨a, e, rest, x, c, s, ha, hs, hc, hw⟩
  · exact Absorbs.plains hp
  refine .trans (Absorbs.plains ha) fun hq => ?_
  -- the entry was still on the stack when the value was found
  have hv : P.places a.memory (k.toValue c) = true :=
    hQ.found hq (.popped (hs ▸ List.mem_cons_self) hc)
  have hdrop : Within Q a (a.withStack rest) := hQ.governs.plain (.drop hs)
  exact (hdrop.trans (hQ.governs.write (v := ⟨k, c⟩) hv hw)) hq

variable (hw : m.poison = none) (hi : m.script.decode m.pc = .ok i)

include hw hi

theorem within_fetched : Within Q m (m.fetched i) :=
  .of_change (.fetch hw hi) fun hm => hQ.moved hm (.fetched m i)

theorem within_of_jumpIfZero {target : UInt32} {r : Except Error Flow}
    (hj : i.opcode = .b ∨ i.opcode = .bz)
    (hop : i.operand = .address target)
    (h : perform i .jumpIfZero (.address target) (m.fetched i) = (r, m')) : Within Q m m' := by
  have := hQ.governs.toAbsorbs
  have hfetch := hQ.within_fetched hw hi
  rcases MachineM.bind_eq.1 h with ⟨n, m₁, hn, h₁⟩ | ⟨e, hn, -⟩
  · have hpop : Within Q (m.fetched i) m₁ := keeps_pop _ _ _ _ hn
    obtain ⟨e₁, s₁, -, -, rfl⟩ := pop_ok hn
    split at h₁
    · obtain ⟨-, rfl⟩ := Prod.mk.inj h₁
      exact (hfetch.trans hpop).trans
        (.of_change (.jump hw rfl hj hop) fun hm => hQ.moved hm (.jump _ target))
    · obtain ⟨-, rfl⟩ := Prod.mk.inj h₁
      exact hfetch.trans hpop
  · exact hfetch.trans (keeps_pop _ _ _ _ hn)

theorem within_of_callBody {target : UInt32} {r : Except Error Flow}
    (hbl : i.opcode = .bl) (hop : i.operand = .address target)
    (h : perform i .callBody (.address target) (m.fetched i) = (r, m')) : Within Q m m' := by
  have hfetch := hQ.within_fetched hw hi
  rw [perform, MachineM.get_bind, ← overriding?] at h
  rcases hf : (m.fetched i).overriding? target with _ | f
  · rw [hf] at h
    rcases MachineM.bind_eq.1 h with ⟨u, m₁, he, h₁⟩ | ⟨e, he, -⟩
    · obtain ⟨depth, rfl⟩ := enter_ok he
      obtain ⟨-, rfl⟩ := Prod.mk.inj h₁
      refine .of_change (.call hw hi hbl hop _ depth) fun hm => hQ.moved hm ?_
      exact (Moved.fetched m i).trans (.entered _ _ _ _)
    · rw [enter_error he]
      exact hfetch
  · rw [hf] at h
    obtain ⟨-, rfl⟩ := Prod.mk.inj h
    exact hfetch

/-- An instruction keeps the invariant, also when it fails. Leaving a body is up to what follows
it. -/
theorem within_of_execute {r : Except Error Flow} (h : execute i (m.fetched i) = (r, m')) :
    Within Q m m' := by
  have := hQ.governs.toAbsorbs
  have hfetch := hQ.within_fetched hw hi
  rw [execute] at h
  generalize heff : i.opcode.effect = eff, hop : i.operand = op at h
  unfold perform at h
  split at h
  · exact hfetch.trans (keeps_binary (i := i) op _ _ _ _ h)
  · exact hfetch.trans (keeps_unary (i := i) op _ _ _ _ h)
  · exact hfetch.trans (hQ.within_of_assign (i := i) op h)
  · exact hfetch.trans (keeps_update (i := i) op _ _ _ _ h)
  · obtain ⟨-, rfl⟩ := Prod.mk.inj h
    exact hfetch.trans (hQ.governs.plain (.push _ (by simp)))
  · obtain ⟨-, rfl⟩ := Prod.mk.inj h
    exact hfetch.trans (hQ.governs.plain (.push _ (by simp)))
  · obtain ⟨-, rfl⟩ := Prod.mk.inj h
    exact hfetch.trans (hQ.governs.plain (.push _ (by simp)))
  · obtain ⟨-, rfl⟩ := Prod.mk.inj h
    exact hfetch.trans (hQ.placed_of_found (.bound _) (.push _))
  · obtain ⟨-, rfl⟩ := Prod.mk.inj h
    exact hfetch.trans (hQ.placed_of_found (.bound _) (.context _))
  · next target =>
    obtain ⟨-, rfl⟩ := Prod.mk.inj h
    exact hfetch.trans (.of_change (.jump hw rfl (Opcode.eq_b_or_bz (.inl heff)) hop)
      fun hm => hQ.moved hm (.jump _ target))
  · exact hQ.within_of_jumpIfZero hw hi (Opcode.eq_b_or_bz (.inr heff)) hop h
  · exact hQ.within_of_callBody hw hi (Opcode.eq_bl heff) hop h
  · obtain ⟨-, rfl⟩ := Prod.mk.inj h
    exact hfetch
  · obtain ⟨-, rfl⟩ := Prod.mk.inj h
    exact hfetch
  · obtain ⟨-, rfl⟩ := Prod.mk.inj h
    exact hfetch
  · -- the operand does not have the shape that the opcode asks for
    obtain ⟨-, rfl⟩ := Prod.mk.inj h
    exact hfetch

end

/-! ## Bodies -/

variable {b : Budget σ} {w w' : World σ}

/-- A step of a usable machine keeps the invariant. -/
theorem within_of_step {r : Except Error Bool} (hb : b.callback.Heeds P (Within Q))
    (h : RunM.step b w = some (r, w')) (hw : w.machine.poison = none) :
    Within Q w.machine w'.machine := by
  rcases hi : w.machine.script.decode w.machine.pc with e | i
  · rw [RunM.step_of_decode_error hi] at h
    obtain ⟨-, rfl⟩ := Prod.mk.inj (Option.some.inj h)
    exact .refl _
  rw [RunM.step_of_decode hi] at h
  rcases RunM.bind_eq_some.1 h with ⟨flow, v, h₁, h₂⟩ | ⟨e, h₁, -⟩
  · obtain ⟨he, -⟩ := RunM.onMachine_eq_some.1 h₁
    have hexecute : Within Q w.machine v.machine := hQ.within_of_execute hw hi he
    cases flow with
    | next =>
      obtain ⟨-, rfl⟩ := Prod.mk.inj (Option.some.inj h₂)
      exact hexecute
    | leave =>
      -- fetching and leaving are one change
      have hp : perform i i.opcode.effect i.operand (w.machine.fetched i) = _ := he
      obtain ⟨hm, hrsr⟩ := eq_of_leave (perform_performs hp) rfl
      obtain ⟨-, rfl⟩ := Prod.mk.inj (Option.some.inj h₂)
      rw [hm]
      refine .of_change (.leave hw hi (Opcode.eq_rsr hrsr)) fun hq => hQ.moved hq ?_
      exact (Moved.fetched w.machine i).trans (.leave _)
    | external f =>
      obtain ⟨s, hc, -⟩ := RunM.bind_pure_eq_some h₂
      exact hexecute.trans (hQ.governs.callExternal hb hc)
    | override f =>
      obtain ⟨s, hc, -⟩ := RunM.bind_pure_eq_some h₂
      exact hexecute.trans (hQ.governs.callOverride hb hc)
  · obtain ⟨he, hw'⟩ := RunM.onMachine_eq_some.1 h₁
    exact hQ.within_of_execute hw hi he

/-- A loop of a usable machine keeps the invariant: its steps leave the machine usable. -/
theorem within_of_repeatStep {n : Nat} {r : Except Error Unit}
    (hb : b.callback.Heeds P (Within Q)) (h : RunM.repeatStep (RunM.step b) n w = some (r, w'))
    (hw : w.machine.poison = none) : Within Q w.machine w'.machine := by
  have hI : ∀ {v v' : World σ}, v.machine.poison = none ∧ Within Q w.machine v.machine →
      RunM.step b v = some (.ok false, v') →
        v'.machine.poison = none ∧ Within Q w.machine v'.machine :=
    fun hv hs => ⟨RunM.usable_of_step hs hv.1, hv.2.trans (hQ.within_of_step hb hs hv.1)⟩
  obtain ⟨v, ⟨hp, hv⟩, ⟨hs, -⟩ | ⟨e, hs, -⟩⟩ := RunM.exists_last_step hI ⟨hw, .refl _⟩ h
  · exact hv.trans (hQ.within_of_step hb hs hp)
  · exact hv.trans (hQ.within_of_step hb hs hp)

/-- A body keeps the invariant if callbacks do. -/
theorem heeds (hb : b.callback.Heeds P (Within Q)) : b.Heeds P (Within Q) where
  callback := hb
  body := by
    intro f a w w' r h hw
    have := hQ.governs.toAbsorbs
    -- an error first makes the machine unusable, so that its bodies may be left
    have hfail : ∀ {m : Machine σ}, Within Q w.machine m → ∀ e,
        Within Q w.machine ((m.poisonWith e).unwind w.machine.frames.length) := by
      intro m hm e
      have hu : (m.poisonWith e).poison ≠ none :=
        Option.isSome_iff_ne_none.1 (isPoisoned_poisonWith m e)
      exact (hm.trans (absorbs_poisonWith m e)).trans
        (.of_change (.unwind hu _) fun hq => hQ.moved hq (.unwind _ _))
    have henter (depth : w.machine.frames.length < w.machine.config.maxCallDepth) :
        Within Q w.machine (w.machine.entered (some f) a true) :=
      .of_change (.enter hw f a depth) fun hq => hQ.moved hq (.entered _ _ _ _)
    cases RunM.runFunction_eq_some h with
    | refused e => exact hfail (.refl _) e
    | left depth hl => exact (henter depth).trans (hQ.within_of_repeatStep hb hl hw)
    | failed depth hl => exact hfail ((henter depth).trans (hQ.within_of_repeatStep hb hl hw)) _

/-- Host code that does only what is permitted keeps the invariant, however deep its callbacks
nest. -/
theorem within_of_runUnder (n : Nat) : (Routine.runUnder P n).Keeps (Within Q) :=
  hQ.governs.runUnder hQ.heeds n

end Protects

end Machine

open Machine

variable {σ : Type} {b : Budget σ}

/-! ## A run consists of changes -/

theorem Machine.stable_evolves : Stable (σ := σ) Evolves := ⟨.trans, Edits.evolves⟩

/-- A body consists of changes if callbacks do. -/
theorem Budget.keeps_evolves (hb : b.callback.Keeps Evolves) : b.Keeps Evolves where
  callback := hb
  body h hw := by
    have hc : b.callback.Heeds .any (Within fun _ => True) :=
      fun x w o w' hx => ⟨within_true_iff.2 (hb x w o w' hx), fun _ _ => rfl⟩
    exact within_true_iff.1 ((protects_true.heeds hc).body h hw)

/-- Host code changes a machine by changes only, however deep its callbacks nest. -/
theorem Routine.evolves_runWithin (n : Nat) : (runWithin n : RoutineRunner σ).Keeps Evolves :=
  keeps_runWithin stable_evolves Budget.keeps_evolves n

/-- The budget of a run in which callbacks nest less than `n` deep. -/
def Budget.nested (n steps : Nat) : Budget σ := ⟨Routine.runWithin n, steps⟩

theorem Budget.nested_keeps_evolves (n steps : Nat) :
    (nested n steps : Budget σ).Keeps Evolves :=
  keeps_evolves (Routine.evolves_runWithin n)

end ScriptMachine
